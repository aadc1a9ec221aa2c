import TBoxMpu.Lib.Circular

/-!
# Headers in a pipe, bodies in a queue

One module's side of `tcom_main.c`: `tcom_forward` puts the body of a message in the module's
queue and its header in the module's pipe, `tcom_recv_msg` takes both out again. Each does so
under the module's mutex.
-/

namespace Tcom

open Circular

/-- `TCOM_MSG_HEADER` -/
structure TcomMsgHeader where
  sender : UInt16
  receiver : UInt16
  msgid : UInt32
  msglen : UInt32
  deriving DecidableEq, Repr

/-- A header with the bytes that come with it. -/
structure TcomMsg where
  hdr : TcomMsgHeader
  body : List UInt8
  deriving DecidableEq, Repr

/-- The body is as long as the header says. -/
def TcomMsg.Sized (m : TcomMsg) : Prop :=
  m.body.length = m.hdr.msglen.toNat

instance (m : TcomMsg) : Decidable m.Sized :=
  inferInstanceAs (Decidable (_ = _))

/-- `TCOM_QUEUE_BUF_SIZE` -/
def queueBufSize : Nat := 100 * 1024

/-- `TCOM_QUEUE` -/
structure TcomQueue where
  head : Nat
  tail : Nat
  buf : List UInt8
  deriving DecidableEq, Repr

/-- A module's entries of `tcom_queue` and `tcom_pipe`. -/
structure Channel where
  queue : TcomQueue
  pipe : List TcomMsgHeader
  deriving DecidableEq, Repr

/-! ### The code -/

/-- `tcom_push_data`: the buffer with `data` in it. -/
def tcomPushData (q : TcomQueue) (data : List UInt8) : List UInt8 :=
  if q.tail ≥ q.head then
    if queueBufSize - q.tail ≥ data.length then overwrite q.buf q.tail data
    else
      let part1 := queueBufSize - q.tail
      overwrite (overwrite q.buf q.tail (data.take part1)) 0 (data.drop part1)
  else overwrite q.buf q.tail data

/-- `tcom_pull_data` -/
def tcomPullData (q : TcomQueue) (len : Nat) : List UInt8 :=
  if q.head ≥ q.tail then
    if queueBufSize - q.head ≥ len then (q.buf.drop q.head).take len
    else
      let part1 := queueBufSize - q.head
      (q.buf.drop q.head).take part1 ++ q.buf.take (len - part1)
  else (q.buf.drop q.head).take len

/-- `tcom_enqueue_msg`; `none` when there is no room. -/
def tcomEnqueueMsg (q : TcomQueue) (m : TcomMsg) : Option TcomQueue :=
  if m.hdr.msglen = 0 then some q
  else
    -- one place stays free, so that a full queue is not an empty one
    let idle := (q.head + queueBufSize - 1 - q.tail) % queueBufSize
    if idle < m.hdr.msglen.toNat then none
    else some { q with
      buf := tcomPushData q m.body
      tail := (q.tail + m.hdr.msglen.toNat) % queueBufSize }

/-- `tcom_dequeue_msg`; `none` when the queue holds fewer bytes. -/
def tcomDequeueMsg (q : TcomQueue) (hdr : TcomMsgHeader) : Option (List UInt8 × TcomQueue) :=
  if hdr.msglen = 0 then some ([], q)
  else
    let used := (q.tail + queueBufSize - q.head) % queueBufSize
    if used < hdr.msglen.toNat then none
    else some (tcomPullData q hdr.msglen.toNat,
      { q with head := (q.head + hdr.msglen.toNat) % queueBufSize })

/-- `tcom_forward`: whether it succeeds. `accepted` says whether the pipe takes the header;
when it does not, the tail goes back. -/
def tcomForward (ch : Channel) (m : TcomMsg) (accepted : Bool) : Bool × Channel :=
  match tcomEnqueueMsg ch.queue m with
  | none => (false, ch)
  | some queue =>
    if accepted then (true, ⟨queue, ch.pipe ++ [m.hdr]⟩)
    else if m.hdr.msglen > 0 then
      (false, { ch with queue := { queue with
        tail := (queue.tail + queueBufSize - m.hdr.msglen.toNat) % queueBufSize } })
    else (false, { ch with queue })

/-- `tcom_recv_msg`: `none` as long as the pipe is empty, then the message, unless the queue
does not hold its body; then the queue is set back. -/
def tcomRecvMsg (ch : Channel) : Option (Option TcomMsg × Channel) :=
  match ch.pipe with
  | [] => none
  | hdr :: pipe =>
    match tcomDequeueMsg ch.queue hdr with
    | some (body, queue) => some (some ⟨hdr, body⟩, ⟨queue, pipe⟩)
    -- all that is queued is thrown away, the headers stay in the pipe
    | none => some (none, ⟨{ ch.queue with head := 0, tail := 0 }, pipe⟩)

/-- After `tcom_init` -/
def Channel.initial : Channel :=
  ⟨⟨0, 0, List.replicate queueBufSize 0⟩, []⟩

/-! ### The queue holds bytes in order -/

namespace TcomQueue

/-- The number of bytes in use. -/
def used (q : TcomQueue) : Nat :=
  (q.tail + queueBufSize - q.head) % queueBufSize

/-- The bytes in use, the oldest first. -/
def contents (q : TcomQueue) : List UInt8 :=
  (q.buf.rotate q.head).take q.used

structure Wf (q : TcomQueue) : Prop where
  head : q.head < queueBufSize
  tail : q.tail < queueBufSize
  length : q.buf.length = queueBufSize

variable {q : TcomQueue}

theorem Wf.used_lt (wf : q.Wf) : q.used < queueBufSize :=
  Nat.mod_lt _ (Nat.zero_lt_of_lt wf.head)

/-- The bytes in use lie between the head and the tail, perhaps around the end. -/
theorem Wf.used_eq (wf : q.Wf) :
    q.used = if q.head ≤ q.tail then q.tail - q.head else q.tail + queueBufSize - q.head := by
  have head := wf.head
  have tail := wf.tail
  unfold used
  split
  · rw [show q.tail + queueBufSize - q.head = q.tail - q.head + queueBufSize by omega,
      Nat.add_mod_right, Nat.mod_eq_of_lt (by omega)]
  · exact Nat.mod_eq_of_lt (by omega)

theorem Wf.tail_eq (wf : q.Wf) : q.tail = (q.head + q.used) % queueBufSize := by
  have head := wf.head
  have tail := wf.tail
  rw [wf.used_eq]
  split
  · rw [show q.head + (q.tail - q.head) = q.tail by omega, Nat.mod_eq_of_lt tail]
  · rw [show q.head + (q.tail + queueBufSize - q.head) = q.tail + queueBufSize by omega,
      Nat.add_mod_right, Nat.mod_eq_of_lt tail]

theorem Wf.idle_eq (wf : q.Wf) :
    (q.head + queueBufSize - 1 - q.tail) % queueBufSize = queueBufSize - 1 - q.used := by
  have head := wf.head
  have tail := wf.tail
  rw [wf.used_eq]
  split
  · rw [Nat.mod_eq_of_lt (by omega)]
    omega
  · rw [show q.head + queueBufSize - 1 - q.tail = q.head - 1 - q.tail + queueBufSize by omega,
      Nat.add_mod_right, Nat.mod_eq_of_lt (by omega)]
    omega

theorem Wf.length_contents (wf : q.Wf) : q.contents.length = q.used := by
  rw [contents, List.length_take, List.length_rotate, wf.length]
  exact Nat.min_eq_left wf.used_lt.le

/-- A position `n` bytes on. -/
theorem used_of {head n : Nat} {buf : List UInt8} (inside : head < queueBufSize)
    (small : n < queueBufSize) :
    TcomQueue.used ⟨head, (head + n) % queueBufSize, buf⟩ = n := by
  unfold used
  dsimp only
  by_cases h : head + n < queueBufSize
  · rw [Nat.mod_eq_of_lt h, show head + n + queueBufSize - head = n + queueBufSize by omega,
      Nat.add_mod_right, Nat.mod_eq_of_lt small]
  · have around : head + n - queueBufSize < queueBufSize := by omega
    rw [Nat.mod_eq_sub_mod (Nat.not_lt.mp h), Nat.mod_eq_of_lt around,
      show head + n - queueBufSize + queueBufSize - head = n by omega, Nat.mod_eq_of_lt small]

/-- Data that fit are written from the tail on, around the end. -/
theorem Wf.push_eq (wf : q.Wf) {data : List UInt8} (fits : q.used + data.length < queueBufSize) :
    tcomPushData q data = write q.buf q.tail data := by
  have head := wf.head
  have tail := wf.tail
  have used := wf.used_eq
  have direct : data.length ≤ queueBufSize - q.tail →
      write q.buf q.tail data = overwrite q.buf q.tail data := by
    intro le
    rw [write, wf.length]
    simp only [Nat.min_eq_left le, List.take_length, List.drop_length]
    simp [overwrite]
  unfold tcomPushData
  split
  next above =>
    split
    next le => exact (direct le).symm
    next gt =>
      rw [write, wf.length]
      simp only [Nat.min_eq_right (Nat.le_of_not_le gt)]
  next below =>
    rw [if_neg (by omega)] at used
    exact (direct (by omega)).symm

theorem Wf.pull_eq (wf : q.Wf) {len : Nat} (enough : len ≤ q.used) :
    tcomPullData q len = Circular.read q.buf q.head len := by
  have head := wf.head
  have tail := wf.tail
  have used := wf.used_eq
  have direct : len ≤ queueBufSize - q.head →
      Circular.read q.buf q.head len = (q.buf.drop q.head).take len := by
    intro le
    rw [Circular.read, wf.length]
    simp only [Nat.min_eq_left le, Nat.sub_self, List.take_zero, List.append_nil]
  unfold tcomPullData
  split
  next above =>
    split
    next le => exact (direct le).symm
    next gt =>
      rw [Circular.read, wf.length]
      simp only [Nat.min_eq_right (Nat.le_of_not_le gt)]
  next below =>
    rw [if_pos (by omega)] at used
    exact (direct (by omega)).symm

/-- A body that is put in the queue lies behind the bytes in use. -/
theorem Wf.enqueued (wf : q.Wf) {m : TcomMsg} (sized : m.Sized) {q' : TcomQueue}
    (h : tcomEnqueueMsg q m = some q') :
    q'.Wf ∧ q'.head = q.head ∧ q'.used = q.used + m.hdr.msglen.toNat ∧
      q'.contents = q.contents ++ m.body := by
  unfold tcomEnqueueMsg at h
  split at h
  next empty =>
    obtain rfl := Option.some.inj h
    have body : m.body = [] := List.eq_nil_of_length_eq_zero (sized.trans (empty ▸ rfl))
    refine ⟨wf, rfl, ?_, ?_⟩
    · rw [empty, UInt32.toNat_zero, Nat.add_zero]
    · rw [body, List.append_nil]
  next =>
    obtain ⟨room, h⟩ := Option.ite_none_left_eq_some.mp h
    obtain rfl := Option.some.inj h
    rw [wf.idle_eq] at room
    have pos : 0 < queueBufSize := Nat.zero_lt_of_lt wf.head
    have fits : q.used + m.body.length < queueBufSize := by
      rw [sized]
      have := wf.used_lt
      omega
    have tail : (q.tail + m.hdr.msglen.toNat) % queueBufSize =
        (q.head + (q.used + m.hdr.msglen.toNat)) % queueBufSize := by
      rw [wf.tail_eq, Nat.mod_add_mod, Nat.add_assoc]
    have used' : TcomQueue.used ⟨q.head, (q.tail + m.hdr.msglen.toNat) % queueBufSize,
        tcomPushData q m.body⟩ = q.used + m.hdr.msglen.toNat := by
      rw [tail]
      exact used_of wf.head (sized ▸ fits)
    refine ⟨⟨wf.head, Nat.mod_lt _ pos, ?_⟩, rfl, used', ?_⟩
    · rw [wf.push_eq fits, length_write (by rw [wf.length]; exact wf.tail.le)
        (by rw [wf.length]; omega), wf.length]
    · rw [contents, used']
      dsimp only
      rw [wf.push_eq fits, wf.tail_eq, ← wf.length, ← sized, contents]
      exact take_rotate_write q.head (by rw [wf.length]; exact pos) (by rw [wf.length]; exact fits.le)

/-- The oldest bytes come out, and the others stay. -/
theorem Wf.dequeued (wf : q.Wf) {hdr : TcomMsgHeader} (enough : hdr.msglen.toNat ≤ q.used) :
    ∃ q', tcomDequeueMsg q hdr = some (q.contents.take hdr.msglen.toNat, q') ∧ q'.Wf ∧
      q'.contents = q.contents.drop hdr.msglen.toNat := by
  unfold tcomDequeueMsg
  split
  next empty =>
    rw [empty, UInt32.toNat_zero, List.take_zero, List.drop_zero]
    exact ⟨q, rfl, wf, rfl⟩
  next =>
    have pos : 0 < queueBufSize := Nat.zero_lt_of_lt wf.head
    have small := wf.used_lt
    have holds : ¬(q.tail + queueBufSize - q.head) % queueBufSize < hdr.msglen.toNat :=
      Nat.not_lt.mpr enough
    dsimp only
    rw [if_neg holds]
    have body : tcomPullData q hdr.msglen.toNat = q.contents.take hdr.msglen.toNat := by
      rw [wf.pull_eq enough, read_eq (by rw [wf.length]; exact wf.head) (by rw [wf.length]; omega),
        contents, List.take_take, Nat.min_eq_left enough]
    have tail : q.tail = ((q.head + hdr.msglen.toNat) % queueBufSize +
        (q.used - hdr.msglen.toNat)) % queueBufSize := by
      rw [Nat.mod_add_mod, Nat.add_assoc, Nat.add_sub_cancel' enough]
      exact wf.tail_eq
    have used' : TcomQueue.used ⟨(q.head + hdr.msglen.toNat) % queueBufSize, q.tail, q.buf⟩ =
        q.used - hdr.msglen.toNat := by
      rw [tail]
      exact used_of (Nat.mod_lt _ pos) (by omega)
    refine ⟨{ q with head := (q.head + hdr.msglen.toNat) % queueBufSize }, by rw [body],
      ⟨Nat.mod_lt _ pos, wf.tail, wf.length⟩, ?_⟩
    rw [contents, used', contents, drop_take_rotate _ enough (by rw [wf.length]; omega)]
    dsimp only
    rw [← wf.length, List.rotate_mod]

end TcomQueue

end Tcom
