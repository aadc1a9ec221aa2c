import TBoxMpu.Gb32960.Session

/-!
# Acknowledged reports

`gb_data_ack_pack` frees whatever report is first on the transmit list. It is the right
one as long as two queues stay aligned: the messages pending on the socket, of which those
with the callback are reports, and the transmit list.

## Main result

`acks_sound`: while no DBC load empties the transmit list under pending reports, every
report is freed once, in sending order, after its last byte was acknowledged.

## Proof strategy

`Aligned` relates the two queues through the reports sent on the connection: those freed
are a first part of them, the rest are the transmit list, and their end positions are
those of the pending callbacks. Each step of a session keeps it.
-/

namespace Gb32960

open Sock Runs

/-- The reports freed on this connection are the first ones it was given, in this order,
and the peer has acknowledged the last byte of each. -/
def AckSound (t : GbSession) : Prop :=
  ∃ k, t.hist.acks = (t.hist.sends.take k).map Prod.fst ∧
    ∀ report ∈ t.hist.sends.take k, report.2 ≤ t.prot.sock.conn.acked

/-- A DBC load is safe when no pack is held and no report is pending on the connection. -/
def NoneSent (t : GbSession) : GbEvent → Prop
  | .loadDbc => t.held = none ∧
      (t.prot.sock.stat = .opened → ∀ message ∈ t.prot.sock.pending, message.sync = none)
  | _ => True

/-! ### Positions in the byte stream -/

/-- Where the messages with a callback end, in a stream in which `done` bytes precede the
first message. -/
def callbackEnds (done : Nat) : List (SyncT GbSync) → List Nat
  | [] => []
  | message :: rest =>
    (if message.sync.isSome then [done + message.len] else []) ++
      callbackEnds (done + message.len) rest

theorem callbackEnds_concat (done : Nat) (messages : List (SyncT GbSync))
    (last : SyncT GbSync) :
    callbackEnds done (messages ++ [last]) = callbackEnds done messages ++
      if last.sync.isSome then [done + (messages.map SyncT.len).sum + last.len] else [] := by
  induction messages generalizing done with
  | nil => simp [callbackEnds]
  | cons message rest ih => simp [callbackEnds, ih, Nat.add_assoc]

theorem callbackEnds_none {messages : List (SyncT GbSync)} (done : Nat)
    (none : ∀ message ∈ messages, message.sync = none) : callbackEnds done messages = [] := by
  induction messages generalizing done with
  | nil => rfl
  | cons message rest ih =>
    simp [callbackEnds, none message (by simp), ih (done + message.len) fun m hm =>
      none m (by simp [hm])]

/-! ### The alignment of the two queues -/

/-- On an open connection: `done` bytes belong to messages no longer pending, `freed`
reports are acknowledged, `rest` are those on the transmit list. -/
structure Aligned (t : GbSession) (done : Nat) (freed rest : List (Nat × Nat)) : Prop where
  bytes : t.prot.sock.conn.sent = done + (t.prot.sock.pending.map SyncT.len).sum
  sends : t.hist.sends = freed ++ rest
  acks : t.hist.acks = freed.map Prod.fst
  acked : ∀ report ∈ freed, report.2 ≤ t.prot.sock.conn.acked
  ends : rest.map Prod.snd = callbackEnds done t.prot.sock.pending
  trans : t.prot.stat.online = true →
    rest.map Prod.fst = (t.prot.store.lists .trans).map t.hist.stamp
  offline : t.prot.stat.online = false → t.hist.sends = []

structure AckInv (t : GbSession) : Prop where
  session : SessionInv t
  sound : AckSound t
  aligned : t.prot.sock.stat = .opened → ∃ done freed rest, Aligned t done freed rest

variable {t t' : GbSession}

theorem Aligned.sound {done : Nat} {freed rest : List (Nat × Nat)}
    (aligned : Aligned t done freed rest) : AckSound t := by
  refine ⟨freed.length, ?_, ?_⟩ <;> rw [aligned.sends, List.take_left]
  · exact aligned.acks
  · exact aligned.acked

theorem ackInv_idle (idle : GbIdle t) : AckInv t :=
  ⟨sessionInv_idle idle, ⟨0, by simp [idle.hist.2], by simp⟩,
    fun opened => nomatch idle.sock.symm.trans opened⟩

/-- A step that handles no report keeps the queues aligned. -/
theorem AckInv.control (inv : AckInv t) {prot : GbProt (SockT GbSync)}
    (control : Control t.prot prot) (session : SessionInv { t with prot }) :
    AckInv { t with prot } := by
  have sound : ∀ {prot : GbProt (SockT GbSync)},
      prot.sock.conn.acked = t.prot.sock.conn.acked → AckSound { t with prot } := by
    intro prot acked
    obtain ⟨k, acks, ends⟩ := inv.sound
    exact ⟨k, acks, fun report mem => acked ▸ ends report mem⟩
  cases control.quiet with
  | reset offline closed acked =>
    refine ⟨session, sound acked, fun opened => ?_⟩
    rcases closed with closed | ⟨same, notOpen⟩
    · exact nomatch closed.symm.trans opened
    · exact absurd (same ▸ opened) notOpen
  | same online sock =>
    refine ⟨session, sound (by rw [sock]), fun opened => ?_⟩
    obtain ⟨done, freed, rest, a⟩ := inv.aligned (sock ▸ opened)
    refine ⟨done, freed, rest, ?_, a.sends, a.acks, ?_, ?_, ?_, ?_⟩ <;> dsimp only
    · rw [sock]; exact a.bytes
    · rw [sock]; exact a.acked
    · rw [sock]; exact a.ends
    · rw [online, control.store]; exact a.trans
    · rw [online]; exact a.offline
  | queued len owner online opened still wf acked sent pending =>
    refine ⟨session, sound acked, fun _ => ?_⟩
    obtain ⟨done, freed, rest, a⟩ := inv.aligned opened
    refine ⟨done, freed, rest, ?_, a.sends, a.acks, ?_, ?_, ?_, ?_⟩ <;> dsimp only
    · rw [sent, pending, a.bytes]
      simp [Nat.add_assoc]
    · rw [acked]; exact a.acked
    · rw [pending, callbackEnds_concat]
      simpa using a.ends
    · rw [online, control.store]; exact a.trans
    · rw [online]; exact a.offline

/-- The oldest pending message is acknowledged: a control message is just forgotten, a
report is the first one on the transmit list. -/
theorem AckInv.acknowledged (inv : AckInv t) {prot : GbProt (SockT GbSync)}
    {sync : SyncT GbSync} {rest : List (SyncT GbSync)} (opened : t.prot.sock.stat = .opened)
    (content : t.prot.sock.pending = sync :: rest)
    (acked : sync.len ≤ t.prot.sock.sendsz - t.prot.sock.conn.unacksz)
    (stat : prot.stat = t.prot.stat)
    (store : prot.store = (match sync.sync with
      | some .ackPack => gbDataAckPack t.prot.store
      | none => t.prot.store))
    (conn : prot.sock.conn = t.prot.sock.conn) (pending : prot.sock.pending = rest)
    {hist : GbHistory} {gone : List GbNode}
    (left : gone = (t.prot.store.lists .trans).take
      ((t.prot.store.lists .trans).length - (prot.store.lists .trans).length))
    (hist_eq : hist = { t.hist with acks := t.hist.acks ++ gone.map t.hist.stamp }) :
    ∃ done freed rest, Aligned { t with prot, hist } done freed rest := by
  obtain ⟨done, freed, later, a⟩ := inv.aligned opened
  have bytes := a.bytes
  have ends := a.ends
  rw [content] at bytes ends
  have size := (inv.session.prot.ok (.inl opened)).pendingSize
  rw [content] at size
  simp only [List.map_cons, List.sum_cons] at bytes size
  -- all bytes of the message are acknowledged
  have passed : done + sync.len ≤ t.prot.sock.conn.acked := by
    simp only [Conn.unacksz] at acked
    omega
  cases callback : sync.sync with
  | none =>
    simp only [callback] at store
    have same : hist = t.hist := by
      rw [hist_eq, left, store]
      simp
    refine ⟨done + sync.len, freed, later, ?_, ?_, ?_, ?_, ?_, ?_, ?_⟩ <;> dsimp only
    · rw [conn, pending, bytes, Nat.add_assoc]
    · rw [same]; exact a.sends
    · rw [same]; exact a.acks
    · rw [conn]; exact a.acked
    · rw [pending, ends]
      simp [callbackEnds, callback]
    · rw [stat, store, same]; exact a.trans
    · rw [stat, same]; exact a.offline
  | some ack =>
    simp only [callback] at store
    cases later with
    | nil => simp [callbackEnds, callback] at ends
    | cons report later =>
      simp only [callbackEnds, callback, Option.isSome_some, if_true, List.map_cons,
        List.cons_append, List.nil_append, List.cons.injEq] at ends
      obtain ⟨reportEnd, ends⟩ := ends
      have online : t.prot.stat.online = true := by
        refine Bool.not_eq_false _ ▸ fun offline => ?_
        have none := a.offline offline
        rw [a.sends] at none
        simp at none
      have trans := a.trans online
      rcases gbDataAckPack_cases t.prot.store with ⟨empty, -⟩ | ⟨n, ns, first, acks⟩
      · rw [empty] at trans
        simp at trans
      rw [first] at trans
      simp only [List.map_cons, List.cons.injEq] at trans
      have transRest : prot.store.lists .trans = ns := by
        rw [store, acks]
        simp
      have freedOne : hist = { t.hist with acks := t.hist.acks ++ [t.hist.stamp n] } := by
        rw [hist_eq, left, transRest, first]
        simp
      refine ⟨done + sync.len, freed ++ [report], later, ?_, ?_, ?_, ?_, ?_, ?_, ?_⟩ <;>
        dsimp only
      · rw [conn, pending, bytes, Nat.add_assoc]
      · rw [freedOne]; simpa using a.sends
      · rw [freedOne, a.acks, ← trans.1]
        simp
      · rw [conn]
        intro r mem
        rcases List.mem_append.mp mem with old | new
        · exact a.acked r old
        · rw [List.mem_singleton.mp new, reportEnd]
          exact passed
      · rw [pending]; exact ends
      · rw [transRest, freedOne]
        exact fun _ => trans.2
      · rw [stat, online]
        exact nofun

private theorem conn_open (env : SockEnv) {sock : SockT GbSync} (closed : sock.stat = .closed) :
    (sockOpen env sock).2.conn = sock.conn := by
  unfold sockOpen
  rw [if_neg (by simp [closed])]
  split <;> rfl

private theorem not_opened_open (env : SockEnv) {sock : SockT GbSync}
    (closed : sock.stat = .closed) : (sockOpen env sock).2.stat ≠ .opened := by
  unfold sockOpen
  rw [if_neg (by simp [closed])]
  split <;> nofun

/-! ### One step -/

/-- A step on the store only, with the transmit list left alone. -/
theorem AckInv.store (inv : AckInv t) {store : GbStore} {held : Option GbNode}
    (trans : store.lists .trans = t.prot.store.lists .trans)
    (session : SessionInv ⟨{ t.prot with store }, held, t.hist⟩) :
    AckInv ⟨{ t.prot with store }, held, t.hist⟩ := by
  refine ⟨session, inv.sound, fun opened => ?_⟩
  obtain ⟨done, freed, rest, a⟩ := inv.aligned opened
  refine ⟨done, freed, rest, a.bytes, a.sends, a.acks, a.acked, a.ends, fun on => ?_, a.offline⟩
  dsimp only
  rw [trans]
  exact a.trans on

theorem AckInv.saveRealtm (inv : AckInv t) {groups : List (List UInt8)} (session : SessionInv t')
    (step : gbEventStep t (.saveRealtm groups) = some t') : AckInv t' := by
  obtain ⟨lost, owned⟩ := inv.session.owned
  obtain ⟨store, saved, rfl⟩ := Option.map_eq_some_iff.mp step
  obtain ⟨sends, acks⟩ := saved_sends t.hist t.prot.store 0 groups
  -- a pack that is stamped anew comes from the free or the realtime list
  have stamps : (store.lists .trans).map (t.hist.saved t.prot.store 0 groups).stamp =
      (t.prot.store.lists .trans).map t.hist.stamp := by
    rw [gbSaveFrom_same id 0 groups saved]
    refine List.map_congr_left fun n mem => saved_stamp _ _ _ _ fun l source => ?_
    exact owned.apart (by rintro rfl; exact source) mem
  refine ⟨session, ?_, fun opened => ?_⟩
  · obtain ⟨k, sound⟩ := inv.sound
    refine ⟨k, ?_⟩
    dsimp only
    rw [sends, acks]
    exact sound
  · obtain ⟨done, freed, rest, a⟩ := inv.aligned opened
    refine ⟨done, freed, rest, a.bytes, ?_, ?_, a.acked, a.ends, fun online => ?_, ?_⟩ <;>
      dsimp only
    · rw [sends]; exact a.sends
    · rw [acks]; exact a.acks
    · rw [stamps]; exact a.trans online
    · rw [sends]; exact a.offline

/-- A DBC load that finds no report pending leaves none to be acknowledged. -/
theorem AckInv.loadDbc (inv : AckInv t) (ok : NoneSent t .loadDbc) (session : SessionInv t')
    (step : gbEventStep t .loadDbc = some t') : AckInv t' := by
  obtain rfl := Option.some.inj step
  obtain ⟨idle, free⟩ := ok
  refine ⟨session, inv.sound, fun opened => ?_⟩
  obtain ⟨done, freed, rest, a⟩ := inv.aligned opened
  have none : rest = [] := by
    have ends := a.ends
    rw [callbackEnds_none done (free opened)] at ends
    exact List.map_eq_nil_iff.mp ends
  refine ⟨done, freed, rest, a.bytes, a.sends, a.acks, a.acked, a.ends, fun _ => ?_, a.offline⟩
  simp [none, gbDataClearReport_lists]

/-- A new connection starts with nothing sent. -/
theorem AckInv.connected (inv : AckInv t) {established : Bool} (session : SessionInv t')
    (step : gbEventStep t (.connected established) = some t') : AckInv t' := by
  simp only [gbEventStep, Option.ite_none_right_eq_some, Option.some.injEq] at step
  obtain ⟨inprog, rfl⟩ := step
  cases established with
  | false => exact ⟨session, inv.sound, by rintro ⟨⟩⟩
  | true =>
    have aligned : Aligned ⟨{ t.prot with sock := sockFinish true t.prot.sock }, t.held,
        { t.hist with sends := [], acks := [] }⟩ 0 [] [] := by
      have none : (sockFinish true t.prot.sock).pending = [] := inv.session.prot.fresh inprog
      have offline : t.prot.stat.online ≠ true := by
        intro on
        cases inprog.symm.trans (inv.session.prot.online on)
      refine ⟨?_, rfl, rfl, List.forall_mem_nil _, ?_, fun on => absurd on offline,
        fun _ => rfl⟩ <;> dsimp only <;> rw [none] <;> rfl
    exact ⟨session, aligned.sound, fun _ => ⟨0, [], [], aligned⟩⟩

theorem AckInv.peerAcks (inv : AckInv t) {upto : Nat} (session : SessionInv t')
    (step : gbEventStep t (.acknowledged upto) = some t') : AckInv t' := by
  simp only [gbEventStep, Option.ite_none_right_eq_some, Option.some.injEq] at step
  obtain ⟨⟨more, -⟩, rfl⟩ := step
  refine ⟨session, ?_, fun opened => ?_⟩
  · obtain ⟨k, acks, ends⟩ := inv.sound
    exact ⟨k, acks, fun report mem => (ends report mem).trans more⟩
  · obtain ⟨done, freed, rest, a⟩ := inv.aligned opened
    exact ⟨done, freed, rest, a.bytes, a.sends, a.acks,
      fun report mem => (a.acked report mem).trans more, a.ends, a.trans, a.offline⟩

theorem AckInv.checksock (inv : AckInv t) {env : SockEnv} (session : SessionInv t')
    (step : gbEventStep t (.checksock env) = some t') : AckInv t' := by
  simp only [gbEventStep, Option.ite_none_right_eq_some, Option.some.injEq] at step
  obtain ⟨idle, rfl⟩ := step
  rcases gbDoChecksock_cases env inv.session.prot.ok env.now with
    control | ⟨closed, sock, stat, store⟩ |
      ⟨opened, sync, rest, content, acked, stat, store, wf, still, conn, pending⟩
  · have next := inv.control control (inv.session.control control (if_pos idle))
    simpa [control.store] using next
  · -- a closed socket is opened: not at once, and nothing is acknowledged
    refine ⟨session, ?_, fun opened => ?_⟩
    · have acked : (sockOpen env t.prot.sock).2.conn = t.prot.sock.conn := conn_open env closed
      obtain ⟨k, acks, ends⟩ := inv.sound
      refine ⟨k, ?_, ?_⟩ <;> dsimp only
      · rw [store]; simpa using acks
      · rw [sock, acked]; exact ends
    · dsimp only at opened
      rw [sock] at opened
      exact absurd opened (not_opened_open env closed)
  · have aligned := inv.acknowledged opened content acked stat store conn pending rfl rfl
    obtain ⟨done, freed, rest, a⟩ := aligned
    exact ⟨session, a.sound, fun _ => ⟨done, freed, rest, a⟩⟩

/-- A login is accepted while nothing was sent, and leaves the transmit list empty. -/
theorem AckInv.receive (inv : AckInv t) {env : SockEnv} {pack : List UInt8}
    (session : SessionInv t') (step : gbEventStep t (.receive env pack) = some t') :
    AckInv t' := by
  obtain ⟨lost, owned⟩ := inv.session.owned
  simp only [gbEventStep, Option.ite_none_right_eq_some] at step
  obtain ⟨opened, step⟩ := step
  rcases gbHandlePack_cases env t.prot pack with
    control | ⟨accepted, online, wait, sock, store⟩
  · obtain ⟨-, rfl⟩ := prots_some step
    exact inv.control control session
  · obtain ⟨idle, rfl⟩ := prots_some step
    have offline := inv.session.prot.wait accepted.awaited
    have trans : (gbHandlePack (sockApi env) pack t.prot).2.store.lists .trans = [] := by
      rw [store]
      split
      · exact trans_relogin fun n => owned.trans_home (n := n)
      · simp [gbDataClearReport_lists]
    refine ⟨session, ?_, fun _ => ?_⟩
    · obtain ⟨k, acks, ends⟩ := inv.sound
      exact ⟨k, acks, fun report mem => sock ▸ ends report mem⟩
    · obtain ⟨done, freed, rest, a⟩ := inv.aligned opened
      obtain ⟨noneFreed, noneLeft⟩ := List.append_eq_nil_iff.mp (a.sends ▸ a.offline offline)
      refine ⟨done, freed, rest, ?_, a.sends, a.acks, ?_, ?_, ?_, ?_⟩ <;> dsimp only
      · rw [sock]; exact a.bytes
      · rw [sock]; exact a.acked
      · rw [sock]; exact a.ends
      · rw [trans, noneLeft]; exact fun _ => rfl
      · rw [online]
        rintro ⟨⟩

theorem AckInv.getPack (inv : AckInv t) (session : SessionInv t')
    (step : gbEventStep t .getPack = some t') : AckInv t' := by
  obtain ⟨-, -, rfl | ⟨rpt, store, got, rfl⟩⟩ := getPack_cases step
  · exact inv
  · exact inv.store (gbDataGetPack_same id got) session

/-- A report that is queued goes to the ends of both queues. -/
theorem Aligned.sent {done : Nat} {freed rest : List (Nat × Nat)} (a : Aligned t done freed rest)
    {prot : GbProt (SockT GbSync)} {rpt : GbNode} {len : Nat} {owner : SyncList}
    (on : t.prot.stat.online = true) (store : prot.store = gbDataPutSend t.prot.store rpt)
    (stat : prot.stat = t.prot.stat) (acked : prot.sock.conn.acked = t.prot.sock.conn.acked)
    (sent : prot.sock.conn.sent = t.prot.sock.conn.sent + len)
    (pending : prot.sock.pending = t.prot.sock.pending ++ [⟨len, some .ackPack, owner⟩]) :
    Aligned ⟨prot, none, { t.hist with
      sends := t.hist.sends ++ [(t.hist.stamp rpt, prot.sock.conn.sent)] }⟩ done freed
        (rest ++ [(t.hist.stamp rpt, prot.sock.conn.sent)]) := by
  refine ⟨?_, ?_, a.acks, ?_, ?_, ?_, ?_⟩ <;> dsimp only
  · rw [sent, pending, a.bytes]
    simp [Nat.add_assoc]
  · rw [a.sends, List.append_assoc]
  · rw [acked]; exact a.acked
  · rw [pending, callbackEnds_concat, List.map_append, a.ends, sent, a.bytes]
    simp
  · rw [store]
    intro _
    simp [gbDataPutSend, a.trans on]
  · rw [stat, on]
    rintro ⟨⟩

theorem AckInv.sendPack (inv : AckInv t) {env : SockEnv} (session : SessionInv t')
    (step : gbEventStep t (.sendPack env) = some t') : AckInv t' := by
  obtain ⟨lost, owned⟩ := inv.session.owned
  obtain ⟨rpt, prot, held, rfl, rfl⟩ := sendPack_cases step
  rw [held] at owned
  rcases gbSendReport_steps env inv.session.prot.ok rpt rfl with
    same | back | ⟨store, stat, opened, still, wf, acked, len, owner, sent, pending⟩
  · rw [same] at session ⊢
    rw [if_neg (lt_irrefl _)] at session ⊢
    exact inv.store rfl session
  · -- put back, and then a step that handles no report
    have trans : (gbDataPutBack t.prot.store rpt).lists .trans = t.prot.store.lists .trans :=
      putBack_other owned.held_home (by simp [GbHome])
    have returned : AckInv
        ⟨{ t.prot with store := gbDataPutBack t.prot.store rpt }, none, t.hist⟩ :=
      inv.store trans (inv.session.putBack held)
    have unsent : ¬ (t.prot.store.lists .trans).length <
        ((gbSendReport (sockApi env) rpt t.prot).2.store.lists .trans).length := by
      rw [back.store, trans]
      exact lt_irrefl _
    rw [if_neg unsent] at session ⊢
    exact returned.control back session
  · have queued : (t.prot.store.lists .trans).length <
        ((gbSendReport (sockApi env) rpt t.prot).2.store.lists .trans).length := by
      rw [store]
      simp [gbDataPutSend]
    rw [if_pos queued] at session ⊢
    obtain ⟨done, freed, rest, a⟩ := inv.aligned opened
    have next := a.sent (inv.session.held (by simp [held])) store stat acked sent pending
    exact ⟨session, next.sound, fun _ => ⟨done, freed, _, next⟩⟩

/-- One step of a session keeps the queues aligned. -/
theorem ackInv_step (inv : AckInv t) {e : GbEvent} (ok : NoneSent t e)
    (step : gbEventStep t e = some t') : AckInv t' := by
  have session : SessionInv t' :=
    sessionInv_step inv.session (fun load => by subst load; exact ok.1) step
  have prots : ∀ {prot}, Control t.prot prot → t.prots prot = some t' → AckInv t' := by
    intro prot control h
    obtain ⟨-, rfl⟩ := prots_some h
    exact inv.control control session
  cases e with
  | saveRealtm groups => exact inv.saveRealtm session step
  | loadDbc => exact inv.loadDbc ok session step
  | connected established => exact inv.connected session step
  | acknowledged upto => exact inv.peerAcks session step
  | message env msg =>
    rcases message_cases step with ⟨set, -, rfl⟩ | ⟨prot, control, step⟩
    · exact inv.store rfl session
    · exact prots control step
  | checksock env => exact inv.checksock session step
  | receive env pack => exact inv.receive session step
  | wait env time => exact prots (gbDoWait_control inv.session.prot.ok _ time) step
  | login env time => exact prots (gbDoLogin_control inv.session.prot.ok _ time) step
  | suspended env => exact prots gbDoSuspend_control step
  | getPack => exact inv.getPack session step
  | sendPack env => exact inv.sendPack session step
  | logout env time => exact prots (gbDoLogout_control inv.session.prot.ok _ time) step

/-! ### Whole runs -/

/-- In every run in which no DBC load finds a pack held or a report pending on the
connection, the acknowledged reports are freed soundly in every state reached. -/
theorem acks_sound
    (h : Reach GbIdle (Guarded NoneSent fun t e t' => gbEventStep t e = some t') t) :
    AckSound t := by
  have inv : AckInv t := by
    refine h.invariant (fun t idle => ackInv_idle idle) ?_
    rintro t e t' inv ⟨ok, step⟩
    exact ackInv_step inv ok step
  exact inv.sound

def oneAcked : GbSession :=
  ((sendOne [0x01] ++ acknowledge 81).foldlM gbEventStep loggedIn).get rfl

/-- One report is sent after the login and acknowledged. -/
theorem acks_sound_one :
    ∃ t, (firstLogin ++ (sendOne [0x01] ++ acknowledge 81)).foldlM gbEventStep parkedSession =
      some t ∧ t.hist.acks = [1] ∧ AckSound t := by
  have rest : (sendOne [0x01] ++ acknowledge 81).foldlM gbEventStep loggedIn = some oneAcked :=
    (Option.some_get _).symm
  have run := run_append loggedIn_eq rest
  refine ⟨oneAcked, run, rfl, acks_sound (Reach.run (.start parkedSession_idle) _ ?_ run)⟩
  intro e mem s
  cases e <;> trivial

def oneSent : GbSession := ((sendOne [0x01]).foldlM gbEventStep loggedIn).get rfl

/-- After a DBC load while the first report is pending. -/
def reloaded : GbSession :=
  { oneSent with prot := { oneSent.prot with store := gbCleared oneSent.prot.store } }

/-- The second report is sent and the bytes of the first are acknowledged. -/
def staleAck : GbSession :=
  ((sendOne [0x02] ++ acknowledge 81).foldlM gbEventStep reloaded).get rfl

/-- A DBC load empties the transmit list but not the socket's: when the first report is
acknowledged, the second one is freed, of which no byte has arrived. -/
theorem reload_frees_unacknowledged : GbIdle parkedSession ∧
    (firstLogin ++ (sendOne [0x01] ++ (.loadDbc :: (sendOne [0x02] ++ acknowledge 81)))).foldlM
      gbEventStep parkedSession = some staleAck ∧
    staleAck.hist.sends = [(1, 81), (2, 107)] ∧ staleAck.hist.acks = [2] ∧
    ¬ AckSound staleAck := by
  have sent : (sendOne [0x01]).foldlM gbEventStep loggedIn = some oneSent :=
    (Option.some_get _).symm
  have reload : gbEventStep oneSent .loadDbc = some reloaded := loadDbc_eq oneSent
  have stale : (sendOne [0x02] ++ acknowledge 81).foldlM gbEventStep reloaded = some staleAck :=
    (Option.some_get _).symm
  have sends : staleAck.hist.sends = [(1, 81), (2, 107)] := rfl
  have acks : staleAck.hist.acks = [2] := rfl
  refine ⟨parkedSession_idle, run_append loggedIn_eq (run_append sent (run_cons reload stale)),
    sends, acks, ?_⟩
  rintro ⟨k, freed, -⟩
  rw [acks, sends] at freed
  cases k with
  | zero => cases freed
  | succ k => cases freed

end Gb32960
