import TBoxMpu.Base.TcomQueue
import TBoxMpu.Lib.Runs

/-!
# Messages between modules

`tcom_send_msg` forwards a message to the dispatcher, which takes one after the other and
forwards each to its receiver. The senders, the dispatcher and the receivers run in any
order; a step is one call under a module's mutex.
-/

namespace Tcom

/-! ### Channels carry messages -/

/-- The messages that were forwarded and not received yet. -/
structure Channel.Carries (ch : Channel) (pending : List TcomMsg) : Prop where
  queue : ch.queue.Wf
  headers : ch.pipe = pending.map TcomMsg.hdr
  bodies : ch.queue.contents = pending.flatMap TcomMsg.body
  sized : ∀ m ∈ pending, m.Sized

theorem carries_initial : Channel.initial.Carries [] := by
  refine ⟨⟨?_, ?_, ?_⟩, rfl, ?_, by simp⟩
  · exact Nat.mul_pos (by decide) (by decide)
  · exact Nat.mul_pos (by decide) (by decide)
  · exact List.length_replicate
  · simp [Channel.initial, TcomQueue.contents, TcomQueue.used]

/-- The queue holds what it held, in the same place. -/
structure SameQueue (q q' : TcomQueue) : Prop where
  head : q'.head = q.head
  tail : q'.tail = q.tail
  length : q'.buf.length = q.buf.length
  contents : q'.contents = q.contents

variable {ch ch' : Channel} {pending : List TcomMsg} {m : TcomMsg} {accepted : Bool}

theorem Channel.Carries.forwarded (carries : ch.Carries pending) (sized : m.Sized)
    (h : tcomForward ch m accepted = (true, ch')) : ch'.Carries (pending ++ [m]) := by
  unfold tcomForward at h
  split at h
  · cases h
  next queue enqueued =>
    obtain ⟨wf, -, -, contents⟩ := carries.queue.enqueued sized enqueued
    split at h
    · cases h
      refine ⟨wf, ?_, ?_, ?_⟩
      · simp [carries.headers]
      · simp [contents, carries.bodies]
      · intro n mem
        rcases List.mem_append.mp mem with mem | mem
        · exact carries.sized n mem
        · exact List.mem_singleton.mp mem ▸ sized
    · split at h
      · cases h
      · cases h

/-- Going back by the body's length undoes the put. -/
theorem SameQueue.rolledBack {q q' : TcomQueue} (wf : q.Wf) (sized : m.Sized)
    (h : tcomEnqueueMsg q m = some q') :
    SameQueue q { q' with
      tail := (q'.tail + queueBufSize - m.hdr.msglen.toNat) % queueBufSize } := by
  obtain ⟨wf', head, used, contents⟩ := wf.enqueued sized h
  have small := wf'.used_lt
  have tail : (q'.tail + queueBufSize - m.hdr.msglen.toNat) % queueBufSize = q.tail := by
    have le : m.hdr.msglen.toNat ≤ queueBufSize := by omega
    have back : q.head + (q.used + m.hdr.msglen.toNat) + (queueBufSize - m.hdr.msglen.toNat) =
        q.head + q.used + queueBufSize := by omega
    rw [wf'.tail_eq, wf.tail_eq, head, used, Nat.add_sub_assoc le, Nat.mod_add_mod, back,
      Nat.add_mod_right]
  refine ⟨head, tail, wf'.length.trans wf.length.symm, ?_⟩
  rw [tail]
  have used' : TcomQueue.used { q' with tail := q.tail } = q.used := by
    unfold TcomQueue.used
    rw [head]
  rw [TcomQueue.contents, used']
  -- What was in use is the front of what is in use now.
  have front := congrArg (List.take q.used) contents
  rw [List.take_left' wf.length_contents, TcomQueue.contents, List.take_take, used,
    Nat.min_eq_left (Nat.le_add_right _ _)] at front
  exact front

theorem Channel.Carries.refused (carries : ch.Carries pending) (sized : m.Sized)
    (h : tcomForward ch m accepted = (false, ch')) :
    SameQueue ch.queue ch'.queue ∧ ch'.pipe = ch.pipe := by
  unfold tcomForward at h
  split at h
  · cases h
    exact ⟨⟨rfl, rfl, rfl, rfl⟩, rfl⟩
  next queue enqueued =>
    split at h
    · cases h
    · split at h
      · cases h
        exact ⟨.rolledBack carries.queue sized enqueued, rfl⟩
      next empty =>
        cases h
        have zero : m.hdr.msglen = 0 := by simpa using empty
        unfold tcomEnqueueMsg at enqueued
        rw [if_pos zero] at enqueued
        cases enqueued
        exact ⟨⟨rfl, rfl, rfl, rfl⟩, rfl⟩

theorem Channel.Carries.unchanged (carries : ch.Carries pending) (sized : m.Sized)
    (h : tcomForward ch m accepted = (false, ch')) : ch'.Carries pending := by
  obtain ⟨⟨head, tail, length, contents⟩, pipe⟩ := carries.refused sized h
  obtain ⟨wf, headers, bodies, sizes⟩ := carries
  refine ⟨⟨?_, ?_, length.trans wf.length⟩, pipe.trans headers, contents.trans bodies, sizes⟩
  · exact head ▸ wf.head
  · exact tail ▸ wf.tail

/-- The oldest message comes out. -/
theorem Channel.Carries.received (carries : ch.Carries (m :: pending)) :
    ∃ ch', tcomRecvMsg ch = some (some m, ch') ∧ ch'.Carries pending := by
  have sized := carries.sized m List.mem_cons_self
  have bodies := carries.bodies
  have enough : m.hdr.msglen.toNat ≤ ch.queue.used := by
    rw [← carries.queue.length_contents, bodies, List.flatMap_cons, List.length_append, sized]
    exact Nat.le_add_right _ _
  obtain ⟨q', dequeued, wf, contents⟩ := carries.queue.dequeued enough
  rw [bodies, List.flatMap_cons, ← sized, List.take_left] at dequeued
  rw [bodies, List.flatMap_cons, ← sized, List.drop_left] at contents
  refine ⟨⟨q', pending.map TcomMsg.hdr⟩, ?_, wf, rfl, contents, ?_⟩
  · unfold tcomRecvMsg
    rw [carries.headers, List.map_cons]
    dsimp only
    rw [dequeued]
  · exact fun n mem => carries.sized n (List.mem_cons_of_mem _ mem)

/-! ### Runs -/

/-- `TCOM_MAX_MSG_LEN` -/
def tcomMaxMsgLen : Nat := 2 * 1024

/-- `MID_TO_INDEX` -/
def midToIndex (mid : UInt16) : Nat :=
  ((mid &&& 0x3F00) >>> 8).toNat - 1

def mpuMidTcom : UInt16 := 0x0700

def mpuMaxMid : UInt16 := 0x1400

/-- The checks of `tcom_send_msg`. -/
def tcomCheckMsg (hdr : TcomMsgHeader) : Bool :=
  hdr.sender &&& 0xC000 == 0 && hdr.receiver &&& 0xC000 == 0 &&
    hdr.sender &&& 0xFF00 ≤ mpuMaxMid && hdr.receiver &&& 0xFF00 ≤ mpuMaxMid &&
    hdr.sender &&& 0xFF00 != 0 && hdr.receiver &&& 0xFF00 != 0 &&
    hdr.msglen.toNat ≤ tcomMaxMsgLen

/-- The channels of all modules, by index; the message that the dispatcher has taken and not
yet forwarded; and, not in the program, what was forwarded to each module and what it has
received. -/
structure TcomState where
  channel : Nat → Channel
  taken : Option TcomMsg
  forwarded : Nat → List TcomMsg
  received : Nat → List TcomMsg

def TcomState.initial : TcomState :=
  ⟨fun _ => .initial, none, fun _ => [], fun _ => []⟩

def update {α : Type} (f : Nat → α) (i : Nat) (a : α) : Nat → α :=
  fun j => if j = i then a else f j

/-- `tcom_forward` to module `i`. -/
def TcomState.forward (s : TcomState) (i : Nat) (m : TcomMsg) (accepted : Bool) : TcomState :=
  let (ok, ch) := tcomForward (s.channel i) m accepted
  { s with
    channel := update s.channel i ch
    forwarded := if ok then update s.forwarded i (s.forwarded i ++ [m]) else s.forwarded }

/-- `tcom_recv_msg` of module `i`: the message, if it returns zero. -/
def TcomState.receive (s : TcomState) (i : Nat) : Option (Option TcomMsg × TcomState) :=
  match tcomRecvMsg (s.channel i) with
  | none => none
  | some (some m, ch) => some (some m, { s with
      channel := update s.channel i ch
      received := update s.received i (s.received i ++ [m]) })
  | some (none, ch) => some (none, { s with channel := update s.channel i ch })

/-- A thread sends; the dispatcher takes a message, or forwards the one it has taken (the
pipe accepts the header or not); a module receives. -/
inductive TcomAct
  | send (m : TcomMsg) (accepted : Bool)
  | take
  | dispatch (accepted : Bool)
  | receive (i : Nat)
  deriving DecidableEq, Repr

def tcomStep (s : TcomState) : TcomAct → Option TcomState
  | .send m accepted =>
    if ¬m.Sized then none
    else if tcomCheckMsg m.hdr then some (s.forward (midToIndex mpuMidTcom) m accepted)
    else some s
  | .take =>
    if s.taken.isSome then none
    else
      match s.receive (midToIndex mpuMidTcom) with
      | none => none
      | some (some m, s) =>
        -- What is for the dispatcher itself it only drops.
        if m.hdr.receiver &&& 0xFF00 = mpuMidTcom then some s else some { s with taken := some m }
      | some (none, s) => some s
  | .dispatch accepted =>
    match s.taken with
    | none => none
    | some m => some { s.forward (midToIndex m.hdr.receiver) m accepted with taken := none }
  | .receive i =>
    if i = midToIndex mpuMidTcom then none else (s.receive i).map Prod.snd

/-! ### The invariant -/

/-- What was forwarded to a module is what it has received, then what its channel carries. -/
structure TcomState.Aligned (s : TcomState) : Prop where
  channels : ∀ i, ∃ pending, s.forwarded i = s.received i ++ pending ∧
    (s.channel i).Carries pending
  taken : ∀ m ∈ s.taken, m.Sized
  short : ∀ i, ∀ m ∈ s.forwarded i, m.body.length ≤ tcomMaxMsgLen
  takenShort : ∀ m ∈ s.taken, m.body.length ≤ tcomMaxMsgLen

theorem aligned_initial : TcomState.initial.Aligned :=
  ⟨fun _ => ⟨[], rfl, carries_initial⟩, nofun, nofun, nofun⟩

@[simp]
theorem update_same {α : Type} (f : Nat → α) (i : Nat) (a : α) : update f i a i = a :=
  if_pos rfl

theorem update_other {α : Type} (f : Nat → α) {i j : Nat} (a : α) (h : j ≠ i) :
    update f i a j = f j :=
  if_neg h

theorem TcomState.Aligned.forward {s : TcomState} (aligned : s.Aligned) (i : Nat) {m : TcomMsg}
    (sized : m.Sized) (short : m.body.length ≤ tcomMaxMsgLen) (accepted : Bool) :
    (s.forward i m accepted).Aligned := by
  obtain ⟨pending, history, carries⟩ := aligned.channels i
  unfold TcomState.forward
  cases h : tcomForward (s.channel i) m accepted with
  | mk ok ch =>
    cases ok with
    | true =>
      refine ⟨?_, aligned.taken, ?_, aligned.takenShort⟩
      · intro j
        by_cases eq : j = i
        · subst eq
          refine ⟨pending ++ [m], ?_, ?_⟩
          · simp [history]
          · simpa using carries.forwarded sized h
        · obtain ⟨pending', history', carries'⟩ := aligned.channels j
          refine ⟨pending', ?_, ?_⟩
          · simpa [update_other _ _ eq] using history'
          · simpa [update_other _ _ eq] using carries'
      · intro j n mem
        by_cases eq : j = i
        · subst eq
          simp only [if_pos, update_same] at mem
          rcases List.mem_append.mp mem with mem | mem
          · exact aligned.short j n mem
          · exact List.mem_singleton.mp mem ▸ short
        · simp only [if_pos, update_other _ _ eq] at mem
          exact aligned.short j n mem
    | false =>
      refine ⟨?_, aligned.taken, aligned.short, aligned.takenShort⟩
      intro j
      obtain ⟨pending', history', carries'⟩ := aligned.channels j
      refine ⟨pending', history', ?_⟩
      by_cases eq : j = i
      · subst eq
        simpa using carries'.unchanged sized h
      · simpa [update_other _ _ eq] using carries'

theorem TcomState.Aligned.receive {s s' : TcomState} {i : Nat} {res : Option TcomMsg}
    (aligned : s.Aligned) (h : s.receive i = some (res, s')) :
    s'.Aligned ∧ s'.taken = s.taken ∧ ∃ m, res = some m ∧ m.Sized ∧
      m.body.length ≤ tcomMaxMsgLen := by
  obtain ⟨pending, history, carries⟩ := aligned.channels i
  unfold TcomState.receive at h
  cases pending with
  | nil =>
    have empty : tcomRecvMsg (s.channel i) = none := by
      unfold tcomRecvMsg
      rw [carries.headers]
      rfl
    rw [empty] at h
    cases h
  | cons m pending =>
    obtain ⟨ch', got, carries'⟩ := carries.received
    rw [got] at h
    cases h
    have short : m.body.length ≤ tcomMaxMsgLen := by
      apply aligned.short i
      rw [history]
      simp
    refine ⟨⟨?_, aligned.taken, aligned.short, aligned.takenShort⟩, rfl, m, rfl,
      carries.sized m List.mem_cons_self, short⟩
    intro j
    by_cases eq : j = i
    · subst eq
      refine ⟨pending, ?_, ?_⟩
      · simp [history]
      · simpa using carries'
    · obtain ⟨pending', history', carries'⟩ := aligned.channels j
      refine ⟨pending', ?_, ?_⟩
      · simpa [update_other _ _ eq] using history'
      · simpa [update_other _ _ eq] using carries'

theorem tcomCheckMsg_short {m : TcomMsg} (sized : m.Sized) (h : tcomCheckMsg m.hdr = true) :
    m.body.length ≤ tcomMaxMsgLen := by
  rw [sized]
  simp only [tcomCheckMsg, Bool.and_eq_true, decide_eq_true_eq] at h
  exact h.2

theorem tcomStep_aligned {s s' : TcomState} {a : TcomAct} (aligned : s.Aligned)
    (step : tcomStep s a = some s') : s'.Aligned := by
  cases a with
  | send m accepted =>
    obtain ⟨sized, step⟩ := Option.ite_none_left_eq_some.mp step
    replace sized := Decidable.not_not.mp sized
    split at step
    next ok =>
      obtain rfl := Option.some.inj step
      exact aligned.forward _ sized (tcomCheckMsg_short sized ok) accepted
    next =>
      obtain rfl := Option.some.inj step
      exact aligned
  | take =>
    obtain ⟨idle, step⟩ := Option.ite_none_left_eq_some.mp step
    split at step
    · -- a message to the thread itself, or one to be forwarded
      cases step
    next m s₁ got =>
      obtain ⟨aligned', -, n, eq, sized, short⟩ := aligned.receive got
      obtain rfl := Option.some.inj eq
      split at step
      · cases step
        exact aligned'
      · cases step
        refine ⟨aligned'.channels, ?_, aligned'.short, ?_⟩
        · intro n mem
          obtain rfl := Option.mem_some_iff.mp mem
          exact sized
        · intro n mem
          obtain rfl := Option.mem_some_iff.mp mem
          exact short
    next got =>
      -- an aligned queue gives a whole message
      obtain ⟨-, -, n, eq, -⟩ := aligned.receive got
      cases eq
  | dispatch accepted =>
    unfold tcomStep at step
    cases taken : s.taken with
    | none =>
      rw [taken] at step
      cases step
    | some m =>
      rw [taken] at step
      cases step
      have forwarded := aligned.forward (midToIndex m.hdr.receiver)
        (aligned.taken m taken) (aligned.takenShort m taken) accepted
      exact ⟨forwarded.channels, nofun, forwarded.short, nofun⟩
  | receive i =>
    obtain ⟨other, step⟩ := Option.ite_none_left_eq_some.mp step
    obtain ⟨⟨res, s₁⟩, got, rfl⟩ := Option.map_eq_some_iff.mp step
    exact (aligned.receive got).1

/-! ### Every module receives what was forwarded to it -/

/-- In any state that senders, dispatcher and receivers reach: each module has received a
prefix of what was forwarded to it, headers and bodies; it can receive the next message as
soon as its pipe holds a header; and a forward that fails leaves its body queue as it was. -/
theorem received_in_order {s : TcomState}
    (h : Runs.Reach (· = TcomState.initial) (fun s a s' => tcomStep s a = some s') s) :
    (∀ i, s.received i <+: s.forwarded i) ∧
    (∀ i, (s.channel i).pipe ≠ [] → ∃ m ch, tcomRecvMsg (s.channel i) = some (some m, ch) ∧
      s.received i ++ [m] <+: s.forwarded i) ∧
    (∀ i m accepted ch, m.Sized → tcomForward (s.channel i) m accepted = (false, ch) →
      SameQueue (s.channel i).queue ch.queue) := by
  have aligned : s.Aligned := by
    apply h.invariant
    · rintro s rfl
      exact aligned_initial
    · exact fun _ _ _ aligned step => tcomStep_aligned aligned step
  refine ⟨?_, ?_, ?_⟩
  · intro i
    obtain ⟨pending, history, -⟩ := aligned.channels i
    exact ⟨pending, history.symm⟩
  · intro i holds
    obtain ⟨pending, history, carries⟩ := aligned.channels i
    cases pending with
    | nil => exact absurd carries.headers holds
    | cons m pending =>
      obtain ⟨ch, got, -⟩ := carries.received
      refine ⟨m, ch, got, pending, ?_⟩
      rw [history, List.append_assoc, List.singleton_append]
  · intro i m accepted ch sized refused
    obtain ⟨pending, -, carries⟩ := aligned.channels i
    exact (carries.refused sized refused).1

/-- Two messages for one module, of which the first one's header is not accepted when the
dispatcher forwards it, and one without a body. -/
def twoMessages : List TcomAct :=
  [.send ⟨⟨0x0200, 0x0E00, 7, 3⟩, [1, 2, 3]⟩ true, .send ⟨⟨0x0300, 0x0E01, 8, 2⟩, [4, 5]⟩ true,
    .take, .dispatch false, .take, .send ⟨⟨0x0200, 0x0E00, 9, 0⟩, []⟩ true, .dispatch true,
    .take, .dispatch true, .receive 13, .receive 13]

theorem two_messages_received :
    ∃ s, twoMessages.foldlM tcomStep .initial = some s ∧
      s.received 13 = [⟨⟨0x0300, 0x0E01, 8, 2⟩, [4, 5]⟩, ⟨⟨0x0200, 0x0E00, 9, 0⟩, []⟩] ∧
      s.received 13 <+: s.forwarded 13 := by
  have runs : (twoMessages.foldlM tcomStep .initial).map (fun s => s.received 13) =
      some [⟨⟨0x0300, 0x0E01, 8, 2⟩, [4, 5]⟩, ⟨⟨0x0200, 0x0E00, 9, 0⟩, []⟩] := by
    decide
  obtain ⟨s, run, received⟩ := Option.map_eq_some_iff.mp runs
  have begun : Runs.Reach (· = TcomState.initial) (fun s a s' => tcomStep s a = some s')
      .initial := .start rfl
  exact ⟨s, run, received, (received_in_order (begun.follow twoMessages run)).1 13⟩

end Tcom
