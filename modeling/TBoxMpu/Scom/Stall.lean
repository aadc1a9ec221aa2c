import TBoxMpu.Scom.Delivery

/-!
# A bulk transfer with losses

Messages can be lost, come late, twice or in another order. Nobody but a read that returns
bytes asks for the next frame then: the resend timer is started with each request, but when
it runs out, `scom_tl_timeout_proc` does nothing for a client.
-/

namespace Scom

open Runs

variable {blob : List UInt8} {tl : ScomTl} {next : Nat} {s t : Link}

/-! ### The network -/

/-- `scom_tl_timeout_proc`, and whether it sends a connect request. It sends nothing else. -/
def scomTlTimeoutProc (tl : ScomTl) : ScomTl × Bool :=
  if tl.status = .disconnected ∨ tl.status = .connecting then
    ({ tl with status := .connecting }, true)
  else (tl, false)

/-- A message that is on its way is delivered, and stays on its way if it is doubled; or it is
lost. -/
inductive NetAct
  | deliverReq (i : Nat) (doubled : Bool)
  | deliverRes (i : Nat) (doubled : Bool)
  | loseReq (i : Nat)
  | loseRes (i : Nat)
  | getData (len : UInt32)
  | timeout

def takeOut (doubled : Bool) (i : Nat) (msgs : List ScomTlMsg) : List ScomTlMsg :=
  if doubled then msgs else msgs.eraseIdx i

def netStep (s : Link) : NetAct → Option Link
  | .deliverReq i doubled =>
    match s.up[i]? with
    | none => none
    | some msg =>
      let (server, sent) := scomTlMsgProc s.server msg
      some { s with server, up := takeOut doubled i s.up, down := s.down ++ sent }
  | .deliverRes i doubled =>
    match s.down[i]? with
    | none => none
    | some msg =>
      let (client, sent) := scomTlMsgProc s.client msg
      some { s with client, down := takeOut doubled i s.down, up := s.up ++ sent }
  | .loseReq i => some { s with up := s.up.eraseIdx i }
  | .loseRes i => some { s with down := s.down.eraseIdx i }
  | .getData len =>
    let (read, client, sent) := scomTlGetData s.client len
    some { s with client, up := s.up ++ sent, returned := s.returned ++ read.bytes }
  -- the connect request is not part of a transfer
  | .timeout => some { s with client := (scomTlTimeoutProc s.client).1 }

/-- The states of the transfers of `blob` over the network. -/
def NetReached (blob : List UInt8) (s : Link) : Prop :=
  Reach (Begins blob) (fun s a t => netStep s a = some t) s

theorem mem_takeOut {doubled : Bool} {i : Nat} {msgs : List ScomTlMsg} {msg : ScomTlMsg}
    (mem : msg ∈ takeOut doubled i msgs) : msg ∈ msgs := by
  unfold takeOut at mem
  split at mem
  · exact mem
  · exact List.mem_of_mem_eraseIdx mem

theorem netStep_deliverRes {i : Nat} {msg : ScomTlMsg} (doubled : Bool)
    (found : s.down[i]? = some msg) : netStep s (.deliverRes i doubled) =
      some { s with
        client := (scomTlMsgProc s.client msg).1
        down := takeOut doubled i s.down
        up := s.up ++ (scomTlMsgProc s.client msg).2 } := by
  unfold netStep
  dsimp only
  rw [found]

theorem netStep_loseReq (s : Link) (i : Nat) :
    netStep s (.loseReq i) = some { s with up := s.up.eraseIdx i } := rfl

theorem netStep_getData (s : Link) (len : UInt32) : netStep s (.getData len) =
    some { s with
      client := (scomTlGetData s.client len).2.1
      up := s.up ++ (scomTlGetData s.client len).2.2
      returned := s.returned ++ (scomTlGetData s.client len).1.bytes } := rfl

/-! ### What is on its way -/

/-- The transfer is going on: what is on its way fits in the ring, if it is still to come. -/
structure Flowing (blob : List UInt8) (next : Nat) (s : Link) : Prop where
  server : Serving blob s.server
  client : Receiving blob next s.returned s.client
  up : ∀ msg ∈ s.up, Asks next (room s.client) msg
  down : ∀ msg ∈ s.down, Answers blob next (room s.client) msg

/-- A client that was stopped is not started again. -/
def NetInv (blob : List UInt8) (s : Link) : Prop :=
  (∃ next, Flowing blob next s) ∨ s.client.status ≠ .clientStarted

/-- A message changes no status. -/
theorem msgProc_status (tl : ScomTl) (msg : ScomTlMsg) :
    (scomTlMsgProc tl msg).1.status = tl.status := by
  cases msg with
  | dataReq fno fcnt => rfl
  | dataNgRes result reason => rfl
  | dataOkRes ftype fno data =>
    unfold scomTlMsgProc scomTlProcDataOkRes
    dsimp only
    split
    · rfl
    · split
      · rfl
      · split
        · exact (sendDataReq_same _).1
        · rfl

theorem Flowing.deliverReq (fl : Flowing blob next s) (size : 0 < blob.length)
    (bound : blob.length ≤ 512 * 1024) {i : Nat} {doubled : Bool}
    (h : netStep s (.deliverReq i doubled) = some t) : Flowing blob next t := by
  unfold netStep at h
  dsimp only at h
  cases found : s.up[i]? with
  | none =>
    rw [found] at h
    cases h
  | some msg =>
    rw [found] at h
    obtain ⟨fno, fcnt, rfl, five, fits⟩ := fl.up msg (List.mem_of_getElem? found)
    obtain rfl := Option.some.inj h
    obtain ⟨-, -, answers, -⟩ := fl.server.answers size bound fno five
    refine ⟨fl.server, fl.client, fun msg mem => fl.up msg (mem_takeOut mem), ?_⟩
    intro msg mem
    rcases List.mem_append.mp mem with old | new
    · exact fl.down msg old
    · exact answers next _ fits msg new

/-- What the client sends after a frame is stored, or bytes are read, fits in the ring. -/
theorem Flowing.onWay {up sent : List ScomTlMsg} {room : Nat}
    (old : ∀ msg ∈ up, Asks next room msg)
    (new : sent = [] ∨ ∃ fcnt ≤ 5, fcnt * 242 ≤ room ∧ sent = [.dataReq next fcnt]) :
    ∀ msg ∈ up ++ sent, Asks next room msg := by
  intro msg mem
  rcases List.mem_append.mp mem with mem | mem
  · exact old msg mem
  · rcases new with rfl | ⟨fcnt, five, window, rfl⟩
    · cases mem
    · rw [List.mem_singleton.mp mem]
      refine ⟨next, fcnt, rfl, five, ?_⟩
      rw [Nat.add_sub_cancel_left]
      exact window

theorem Flowing.deliverRes (fl : Flowing blob next s) (bound : blob.length ≤ 512 * 1024) {i : Nat}
    {doubled : Bool} (h : netStep s (.deliverRes i doubled) = some t) :
    ∃ next, Flowing blob next t := by
  cases found : s.down[i]? with
  | none =>
    unfold netStep at h
    dsimp only at h
    rw [found] at h
    cases h
  | some msg =>
    rw [netStep_deliverRes doubled found] at h
    have down : ∀ msg ∈ takeOut doubled i s.down, Answers blob next (room s.client) msg :=
      fun msg mem => fl.down msg (mem_takeOut mem)
    -- a message that the client drops changes only what is on its way
    have ignored : scomTlMsgProc s.client msg = (s.client, []) → Flowing blob next t := by
      intro same
      rw [same] at h
      obtain rfl := Option.some.inj h
      exact ⟨fl.server, fl.client, by simpa using fl.up, down⟩
    rcases fl.down msg (List.mem_of_getElem? found) with
      ⟨fno, inside, rfl, fits⟩ | ⟨result, reason, rfl⟩
    · by_cases expected : fno = next
      · subst expected
        rw [Nat.add_sub_cancel_left, Nat.one_mul] at fits
        obtain ⟨rc, -, left, asked⟩ := fl.client.accept bound inside fits rfl
        obtain rfl := Option.some.inj h
        refine ⟨fno + 1, fl.server, rc, ?_, fun msg mem => (down msg mem).stored left⟩
        exact Flowing.onWay (fun msg mem => (fl.up msg mem).stored left) asked
      · -- a frame that came before, or one too early
        have other : (fno : Int) ≠ s.client.rxDataCtl.rxFno + 1 := by
          rw [fl.client.fno]
          omega
        exact ⟨next, ignored (procDataOkRes_other other _ _)⟩
    · exact ⟨next, ignored rfl⟩

theorem Flowing.getData (fl : Flowing blob next s) (bound : blob.length ≤ 512 * 1024)
    {len : UInt32} (h : netStep s (.getData len) = some t) : NetInv blob t := by
  rw [netStep_getData] at h
  have nothing : ∀ read, read.bytes = [] → scomTlGetData s.client len = (read, s.client, []) →
      NetInv blob t := by
    intro read none got
    rw [got] at h
    dsimp only at h
    rw [none, List.append_nil, List.append_nil] at h
    obtain rfl := Option.some.inj h
    exact .inl ⟨next, fl⟩
  rcases fl.client.getData len with ⟨-, got⟩ | ⟨-, -, got⟩ | ⟨bytes, -, -, rc, more, got⟩
  · exact nothing _ rfl got
  · exact nothing _ rfl got
  · have up : ∀ msg ∈ s.up, Asks next (room (readBytes s.client len)) msg :=
      fun msg mem => (fl.up msg mem).mono (by omega)
    have down : ∀ msg ∈ s.down, Answers blob next (room (readBytes s.client len)) msg :=
      fun msg mem => (fl.down msg mem).mono (by omega)
    rcases got with ⟨unfinished, got⟩ | ⟨-, -, got⟩ | ⟨-, -, got⟩
    · rw [got] at h
      obtain rfl := Option.some.inj h
      obtain ⟨requested, same⟩ := rc.requested
      refine .inl ⟨next, fl.server, requested, ?_, same ▸ down⟩
      apply Flowing.onWay (same ▸ up)
      rcases rc.request bound unfinished with ⟨-, none⟩ | ⟨fcnt, -, five, window, sent⟩
      · exact .inl none
      · exact .inr ⟨fcnt, five, same ▸ window, sent⟩
    · rw [got] at h
      obtain rfl := Option.some.inj h
      exact .inl ⟨next, fl.server, rc, by simpa using up, down⟩
    · rw [got] at h
      obtain rfl := Option.some.inj h
      exact .inr nofun

/-- The timer does nothing in a started state. -/
theorem timeout_started (started : tl.status = .clientStarted) :
    scomTlTimeoutProc tl = (tl, false) := by
  unfold scomTlTimeoutProc
  rw [started]
  rfl

theorem netInv_stopped {a : NetAct} (idle : s.client.status ≠ .clientStarted)
    (h : netStep s a = some t) : t.client.status ≠ .clientStarted := by
  unfold netStep at h
  cases a with
  | deliverReq i doubled =>
    dsimp only at h
    split at h
    · cases h
    · obtain rfl := Option.some.inj h
      exact idle
  | deliverRes i doubled =>
    dsimp only at h
    split at h
    · cases h
    next msg _ =>
      obtain rfl := Option.some.inj h
      have same := msgProc_status s.client msg
      exact fun started => idle (same.symm.trans started)
  | loseReq i =>
    obtain rfl := Option.some.inj h
    exact idle
  | loseRes i =>
    obtain rfl := Option.some.inj h
    exact idle
  | getData len =>
    have same : (scomTlGetData s.client len).2.1 = s.client := by
      unfold scomTlGetData
      rw [if_pos idle]
    obtain rfl := Option.some.inj h
    exact fun started => idle (same ▸ started)
  | timeout =>
    obtain rfl := Option.some.inj h
    unfold scomTlTimeoutProc
    dsimp only
    split
    · exact nofun
    · exact idle

theorem netInv_step (size : 0 < blob.length) (bound : blob.length ≤ 512 * 1024) {a : NetAct}
    (inv : NetInv blob s) (h : netStep s a = some t) : NetInv blob t := by
  rcases inv with ⟨next, fl⟩ | idle
  · cases a with
    | deliverReq i doubled => exact .inl ⟨next, fl.deliverReq size bound h⟩
    | deliverRes i doubled => exact .inl (fl.deliverRes bound h)
    | loseReq i =>
      obtain rfl := Option.some.inj h
      exact .inl ⟨next, fl.server, fl.client,
        fun msg mem => fl.up msg (List.mem_of_mem_eraseIdx mem), fl.down⟩
    | loseRes i =>
      obtain rfl := Option.some.inj h
      exact .inl ⟨next, fl.server, fl.client, fl.up,
        fun msg mem => fl.down msg (List.mem_of_mem_eraseIdx mem)⟩
    | getData len => exact fl.getData bound h
    | timeout =>
      obtain rfl := Option.some.inj h
      rw [timeout_started fl.client.status]
      exact .inl ⟨next, fl⟩
  · exact .inr (netInv_stopped idle h)

theorem netReached_inv (size : 0 < blob.length) (bound : blob.length ≤ 512 * 1024)
    (reached : NetReached blob s) : NetInv blob s := by
  have starts : ∀ s, Begins blob s → NetInv blob s := by
    intro s begins
    have st := streaming_begins size bound begins
    exact .inl ⟨0, st.server, st.client, st.up, st.down⟩
  have kept : ∀ s e t, NetInv blob s → netStep s e = some t → NetInv blob t :=
    fun _ _ _ => netInv_step size bound
  exact Reach.invariant starts kept reached

/-! ### Who asks for the next frame -/

/-- What the client does of itself. -/
inductive ClientCall
  | timeout
  | getData (len : UInt32)

def clientCall (tl : ScomTl) : ClientCall → ScomTl × List ScomTlMsg
  | .timeout => ((scomTlTimeoutProc tl).1, [])
  | .getData len => (scomTlGetData tl len).2

/-- Some later time-out or read asks for the next frame not yet received, whatever becomes of
the messages that are on their way. -/
def AsksAgain (tl : ScomTl) : Prop :=
  ∃ (calls : List ClientCall) (call : ClientCall) (fno fcnt : Nat),
    ScomTlMsg.dataReq fno fcnt ∈
      (clientCall (calls.foldl (fun tl c => (clientCall tl c).1) tl) call).2 ∧
    (fno : Int) = tl.rxDataCtl.rxFno + 1 ∧ 0 < fcnt

/-- A client with an empty ring does nothing of itself. -/
theorem clientCall_empty (started : tl.status = .clientStarted) (empty : rbEmpty tl.rxRb = true)
    (call : ClientCall) : clientCall tl call = (tl, []) := by
  cases call with
  | timeout => rw [clientCall, timeout_started started]
  | getData len =>
    unfold clientCall scomTlGetData
    dsimp only
    rw [if_neg (not_not.mpr started), if_pos empty]

theorem clientCalls_empty (started : tl.status = .clientStarted) (empty : rbEmpty tl.rxRb = true)
    (calls : List ClientCall) : calls.foldl (fun tl c => (clientCall tl c).1) tl = tl := by
  induction calls with
  | nil => rfl
  | cons call rest ih =>
    rw [List.foldl_cons, clientCall_empty started empty]
    exact ih

/-- A client that holds bytes and misses a frame asks for it when they are read. -/
theorem Receiving.asksAgain {returned : List UInt8} (rc : Receiving blob next returned tl)
    (bound : blob.length ≤ 512 * 1024) (open_ : next < frameCount blob)
    (holds : tl.rxRb.contents ≠ []) : AsksAgain tl := by
  have unfinished : tl.rxDataCtl.rxFtype ≠ .lastFrame := by
    intro last
    have := (rc.last.mp last).2
    omega
  rcases rc.getData 2048 with ⟨empty, -⟩ | ⟨-, zero, -⟩ |
    ⟨bytes, -, all, rc', -, ⟨-, got⟩ | ⟨last, -⟩ | ⟨last, -⟩⟩
  · exact absurd empty holds
  · exact absurd zero (by decide)
  · have length := rc.length_le
    have everything : bytes = tl.rxRb.contents := by
      rw [all]
      exact List.take_of_length_le length
    have wide : room (readBytes tl 2048) = 2048 := by
      have data := rc'.data
      have before := rc.data
      rw [← everything] at before
      rw [← before] at data
      have none : (readBytes tl 2048).rxRb.contents = [] := by
        simpa using data
      rw [room, none]
      rfl
    rcases rc'.request bound unfinished with ⟨narrow, -⟩ | ⟨fcnt, some, -, -, sent⟩
    · omega
    · refine ⟨[], .getData 2048, next, fcnt, ?_, rc.fno.symm, some⟩
      rw [List.foldl_nil, clientCall, got, sent]
      exact List.mem_singleton_self _
  · exact absurd last unfinished
  · exact absurd last unfinished

/-- Where neither the first request nor its first answer is lost, the client has a frame. -/
theorem first_frame_comes (size : 0 < blob.length) (bound : blob.length ≤ 512 * 1024)
    (begins : Begins blob s) : ∃ t, NetReached blob t ∧ t.client.rxRb.contents ≠ [] ∧
      t.client.status = .clientStarted ∧ t.client.rxDataCtl.rxFno = 0 := by
  have st := streaming_begins size bound begins
  have count := frameCount_pos size
  have down : s.down = [] := by
    obtain ⟨server, client, -, -, -, -, rfl⟩ := begins
    rfl
  have up : s.up = [.dataReq 0 5] := by
    rcases st.first rfl with ⟨up, -⟩ | ⟨-, all⟩
    · exact up
    · rw [down, framesFrom, if_pos count] at all
      cases all
  have answer : scomTlProcDataReq s.server 0 5 = framesFrom blob 0 5 := by
    rw [st.server.answer size bound, if_pos count]
  have asked : netStep s (.deliverReq 0 false) =
      some { s with up := [], down := framesFrom blob 0 5 } := by
    unfold netStep
    dsimp only
    rw [up]
    dsimp only [List.getElem?_cons_zero]
    rw [scomTlMsgProc, answer, down]
    rfl
  have found : (framesFrom blob 0 5)[0]? = some (frame blob 0) := by
    rw [framesFrom, if_pos count]
    rfl
  have fits : 242 ≤ room s.client := by
    rcases st.up _ (up ▸ List.mem_singleton_self _) with ⟨fno, fcnt, same, -, fits⟩
    obtain ⟨rfl, rfl⟩ := ScomTlMsg.dataReq.inj same
    omega
  obtain ⟨rc, holds, -, -⟩ := st.client.accept bound count fits rfl
  have came := netStep_deliverRes (s := { s with up := [], down := framesFrom blob 0 5 }) false found
  have fno : (scomTlProcDataOkRes s.client (frameType blob 0) 0 (chunk blob 0)).1.rxDataCtl.rxFno
      = 0 := by
    have fno := rc.fno
    omega
  exact ⟨_, .next _ (.next _ (.start begins) asked) came, holds, rc.status, fno⟩

end Scom
