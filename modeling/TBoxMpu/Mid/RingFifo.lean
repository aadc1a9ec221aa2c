import TBoxMpu.Lib.Fifo
import TBoxMpu.Lib.Machines
import TBoxMpu.Mid.RingBuffer

/-!
# The ring buffer as a bounded queue

`ring_buffer.c` over whole sequences of calls, also when the positions have wrapped around.
What the ring holds is always what a bounded queue would hold (`ring_follows`). Two things
differ. The results of `rb_in` and `rb_out` are of type `int`, so that a count of 2^31 is
negative (`ring_refines_iff`). `rb_get` masks the position it reads from but not the end, so
that it can find more bytes than there are (`peeks_iff`).
-/

open Machines Circular

namespace RingBuffer

/-! ### Calls -/

/-- A caller's buffer is at most as long as an `unsigned int` says. -/
inductive RbCall
  | rbIn (data : List UInt8) (short : data.length < 2 ^ 32)
  | rbOut (size : UInt32)
  | rbClean
  | rbUsedLen
  | rbUnusedLen

/-- A call with the result that the caller sees: `rb_in` and `rb_out` return an `int`, the
others an `unsigned int`. -/
def rbCall (rb : RingBuffer) : RbCall → Fifo.Answer UInt8 × RingBuffer
  | .rbIn data _ =>
    let (size, rb) := rbIn rb data (UInt32.ofNat data.length)
    (⟨size.toInt32.toInt, []⟩, rb)
  | .rbOut size =>
    let (bytes, rb) := rbOut rb size
    (⟨(UInt32.ofNat bytes.length).toInt32.toInt, bytes⟩, rb)
  | .rbClean => (⟨0, []⟩, rbClean rb)
  | .rbUsedLen => (⟨(rbUsedLen rb).toNat, []⟩, rb)
  | .rbUnusedLen => (⟨(rbUnusedLen rb).toNat, []⟩, rb)

def RbCall.op : RbCall → Fifo.Op UInt8
  | .rbIn data _ => .put data
  | .rbOut size => .take size.toNat
  | .rbClean => .clear
  | .rbUsedLen => .used
  | .rbUnusedLen => .unused

/-- The same calls on a queue that is as large as the ring. -/
def queueCall (size : UInt32) (q : List UInt8) (call : RbCall) : Fifo.Answer UInt8 × List UInt8 :=
  Fifo.step size.toNat q call.op

/-- The call does not move 2^31 bytes at once; no ring that is smaller could. -/
def CountFits (size : UInt32) (q : List UInt8) : RbCall → Prop
  | .rbIn data _ => ¬ (size.toNat = 2 ^ 31 ∧ q = [] ∧ 2 ^ 31 ≤ data.length)
  | .rbOut n => ¬ (q.length = 2 ^ 31 ∧ 2 ^ 31 ≤ n.toNat)
  | _ => True

/-! ### The ring holds what the queue holds -/

/-- A size that `rb_init` accepts is a power of two. -/
theorem isPowerOf2_iff {size : UInt32} (accepted : isPowerOf2 size = true) :
    ∃ k < 32, size.toNat = 2 ^ k := by
  unfold isPowerOf2 at accepted
  rw [Bool.and_eq_true, bne_iff_ne, beq_iff_eq] at accepted
  obtain ⟨nonzero, masked⟩ := accepted
  have positive : size.toNat ≠ 0 := fun zero => nonzero (UInt32.toNat_inj.mp zero)
  have below : (size - 1).toNat = size.toNat - 1 := by
    have one : (1 : UInt32).toNat = 1 := rfl
    rw [UInt32.toNat_sub_of_le _ _ (UInt32.le_iff_toNat_le.mpr (by omega)), one]
  have masked := congrArg UInt32.toNat masked
  rw [UInt32.toNat_and, below] at masked
  obtain ⟨k, power⟩ := Nat.ne_zero_and_sub_one_eq_zero_iff_isPowerOfTwo.mp ⟨positive, masked⟩
  refine ⟨k, ?_, power⟩
  have small := size.toNat_lt
  rw [power] at small
  exact (Nat.pow_lt_pow_iff_right (by decide)).mp small

variable {rb : RingBuffer} {size : UInt32} {q : List UInt8}

/-- The ring has this size and holds the queue. -/
structure Follows (size : UInt32) (rb : RingBuffer) (q : List UInt8) : Prop where
  wf : rb.Wf
  size : rb.size = size
  contents : rb.contents = q

theorem follows_init {buffer : List UInt8} (init : rbInit buffer size = some rb)
    (length : buffer.length = size.toNat) : Follows size rb [] := by
  unfold rbInit at init
  obtain ⟨accepted, same⟩ := Option.ite_none_right_eq_some.mp init
  obtain rfl := Option.some.inj same
  refine ⟨⟨isPowerOf2_iff accepted, length, ?_⟩, rfl, ?_⟩
  · simp [rbUsedLen]
  · simp [contents, rbUsedLen]

theorem Follows.length_le (follows : Follows size rb q) : q.length ≤ size.toNat := by
  rw [← follows.contents, ← follows.size, follows.wf.length_contents]
  exact follows.wf.used

theorem Follows.size_le (follows : Follows size rb q) : size.toNat ≤ 2 ^ 31 := by
  obtain ⟨k, small, power⟩ := follows.wf.power
  rw [follows.size] at power
  rw [power]
  exact Nat.pow_le_pow_right (by decide) (Nat.le_of_lt_succ small)

theorem toNat_ofNat_length {data : List UInt8} (short : data.length < 2 ^ 32) :
    (UInt32.ofNat data.length).toNat = data.length := by
  rw [UInt32.toNat_ofNat', Nat.mod_eq_of_lt short]

/-- What `rb_in` stores, in the words of the queue. -/
theorem Follows.stored (follows : Follows size rb q) {data : List UInt8}
    (short : data.length < 2 ^ 32) :
    (rbIn rb data (UInt32.ofNat data.length)).1.toNat = (data.take (size.toNat - q.length)).length ∧
    Follows size (rbIn rb data (UInt32.ofNat data.length)).2
      (q ++ data.take (size.toNat - q.length)) := by
  have len := toNat_ofNat_length short
  obtain ⟨wf, same, count, contents⟩ := follows.wf.stored len.le
  rw [len, follows.size, follows.contents] at count contents
  refine ⟨?_, wf, same.trans follows.size, ?_⟩
  · rw [count, List.length_take, Nat.min_comm]
  · rw [contents, Nat.min_comm, ← List.take_take, List.take_length]

theorem Follows.removed (follows : Follows size rb q) (n : UInt32) :
    (rbOut rb n).1 = q.take n.toNat ∧ Follows size (rbOut rb n).2 (q.drop n.toNat) := by
  obtain ⟨wf, same, bytes, contents⟩ := follows.wf.taken n
  rw [follows.contents] at bytes contents
  exact ⟨bytes, wf, same.trans follows.size, contents⟩

theorem Follows.call (follows : Follows size rb q) (call : RbCall) :
    Follows size (rbCall rb call).2 (queueCall size q call).2 := by
  cases call with
  | rbIn data short => exact (follows.stored short).2
  | rbOut n => exact (follows.removed n).2
  | rbClean =>
    obtain ⟨wf, same, contents⟩ := follows.wf.cleaned
    exact ⟨wf, same.trans follows.size, contents⟩
  | rbUsedLen => exact follows
  | rbUnusedLen => exact follows

theorem toInt32_eq (n : UInt32) : n.toInt32.toInt =
    if 2 * n.toNat < 2 ^ 32 then (n.toNat : Int) else n.toNat - 2 ^ 32 :=
  BitVec.toInt_eq_toNat_cond n.toBitVec

/-- An `unsigned int` is the `int` it is converted to below 2^31. -/
theorem toInt32_eq_iff (n : UInt32) : n.toInt32.toInt = n.toNat ↔ n.toNat < 2 ^ 31 := by
  have small := n.toNat_lt
  rw [toInt32_eq]
  split <;> omega

theorem Follows.answer_iff (follows : Follows size rb q) (call : RbCall) :
    (rbCall rb call).1 = (queueCall size q call).1 ↔ CountFits size q call := by
  have length := follows.length_le
  have half := follows.size_le
  have used : (rbUsedLen rb).toNat = q.length := by
    rw [← follows.wf.length_contents, follows.contents]
  cases call with
  | rbIn data short =>
    obtain ⟨count, -⟩ := follows.stored short
    have same := toInt32_eq_iff (rbIn rb data (UInt32.ofNat data.length)).1
    rw [count, List.length_take] at same
    have empty := List.length_eq_zero_iff (l := q)
    unfold rbCall queueCall RbCall.op Fifo.step CountFits
    dsimp only
    rw [Fifo.Answer.mk.injEq, and_iff_left rfl, List.length_take, same, ← empty]
    omega
  | rbOut n =>
    obtain ⟨bytes, -⟩ := follows.removed n
    have small : (q.take n.toNat).length < 2 ^ 32 := by
      rw [List.length_take]
      omega
    have same := toInt32_eq_iff (UInt32.ofNat (q.take n.toNat).length)
    rw [toNat_ofNat_length small, List.length_take] at same
    unfold rbCall queueCall RbCall.op Fifo.step CountFits
    dsimp only
    rw [bytes, Fifo.Answer.mk.injEq, and_iff_left rfl, List.length_take, same]
    omega
  | rbClean => exact iff_of_true rfl trivial
  | rbUsedLen =>
    refine iff_of_true ?_ trivial
    unfold rbCall queueCall RbCall.op Fifo.step
    rw [used]
  | rbUnusedLen =>
    refine iff_of_true ?_ trivial
    have unused := follows.wf.unused
    rw [follows.size, used] at unused
    unfold rbCall queueCall RbCall.op Fifo.step
    rw [unused]

/-- Whatever is called, the ring holds what the queue holds. -/
theorem ring_follows {buffer : List UInt8} (init : rbInit buffer size = some rb)
    (length : buffer.length = size.toNat) (calls : List RbCall) :
    Follows size (after rbCall rb calls) (after (queueCall size) [] calls) :=
  after_related (fun _ _ a follows => follows.call a) (follows_init init length) calls

/-- The results are those of the queue exactly if no call moves 2^31 bytes. -/
theorem ring_refines_iff {buffer : List UInt8} (init : rbInit buffer size = some rb)
    (length : buffer.length = size.toNat) (calls : List RbCall) :
    answers rbCall rb calls = answers (queueCall size) [] calls ↔
      Along (queueCall size) (CountFits size) [] calls :=
  answers_eq_iff (fun _ _ a follows => follows.call a) (fun _ _ a follows => follows.answer_iff a)
    (follows_init init length) calls

/-- In a ring that is smaller than 2^31 bytes, every count is one. -/
theorem countFits_small (small : size.toNat < 2 ^ 31) (fits : q.length ≤ size.toNat)
    (calls : List RbCall) : Along (queueCall size) (CountFits size) q calls := by
  induction calls generalizing q with
  | nil => trivial
  | cons call rest ih =>
    refine ⟨?_, ih (Fifo.length_step fits call.op)⟩
    cases call with
    | rbIn data short => exact fun large => absurd large.1 small.ne
    | rbOut n =>
      rintro ⟨full, -⟩
      omega
    | rbClean => trivial
    | rbUsedLen => trivial
    | rbUnusedLen => trivial

def fourRing : RingBuffer := ⟨[0, 0, 0, 0], 4, 0, 0⟩

theorem init_fourRing : rbInit [0, 0, 0, 0] 4 = some fourRing := rfl

/-- Four bytes, written around the end. -/
theorem ring_refines_four :
    answers rbCall fourRing [.rbIn [1, 2, 3] (by decide), .rbOut 2,
      .rbIn [4, 5, 6, 7] (by decide), .rbUnusedLen, .rbOut 9] =
    answers (queueCall 4) [] [.rbIn [1, 2, 3] (by decide), .rbOut 2,
      .rbIn [4, 5, 6, 7] (by decide), .rbUnusedLen, .rbOut 9] :=
  (ring_refines_iff init_fourRing rfl _).mpr
    (countFits_small (by decide) (by decide) _)

def halfRing : RingBuffer := ⟨List.replicate (2 ^ 31) 0, 0x80000000, 0, 0⟩

theorem length_half : (List.replicate (2 ^ 31) (0x55 : UInt8)).length < 2 ^ 32 := by
  rw [List.length_replicate]
  decide

/-- `rb_in` stores 2^31 bytes and returns a negative number. -/
theorem half_ring_count :
    rbInit (List.replicate (2 ^ 31) 0) 0x80000000 = some halfRing ∧
    (rbCall halfRing (.rbIn (List.replicate (2 ^ 31) 0x55) length_half)).1.count = -2 ^ 31 ∧
    answers rbCall halfRing [.rbIn (List.replicate (2 ^ 31) 0x55) length_half] ≠
      answers (queueCall 0x80000000) [] [.rbIn (List.replicate (2 ^ 31) 0x55) length_half] := by
  have init : rbInit (List.replicate (2 ^ 31) 0) 0x80000000 = some halfRing :=
    if_pos (by decide)
  have follows := follows_init init List.length_replicate
  obtain ⟨count, -⟩ := follows.stored length_half
  have size : (0x80000000 : UInt32).toNat = 2 ^ 31 := rfl
  have whole : (List.take ((0x80000000 : UInt32).toNat - ([] : List UInt8).length)
      (List.replicate (2 ^ 31) (0x55 : UInt8))).length = 2 ^ 31 := by
    rw [size, List.length_nil, Nat.sub_zero, List.length_take, List.length_replicate, Nat.min_self]
  rw [whole] at count
  refine ⟨init, ?_, fun same => ?_⟩
  · unfold rbCall
    dsimp only
    rw [toInt32_eq, count]
    decide
  · have fits := (follows.answer_iff _).mp (List.head_eq_of_cons_eq same)
    exact fits ⟨size, rfl, List.length_replicate.ge⟩

/-! ### Peeking -/

/-- The number of bytes that `rb_get` copies. -/
def rbGetCount (rb : RingBuffer) (offset size : UInt32) : UInt32 :=
  min size (rb.inPos - ((rb.outPos + offset) &&& (rb.size - 1)))

/-- `rb_get` copies what `rb_out` returns once the bytes before the offset are removed. -/
def Peeks (rb : RingBuffer) (offset size : UInt32) : Prop :=
  (rbGetCount rb offset size).toNat = (rbOut (rbOut rb offset).2 size).1.length ∧
  rbGet rb offset size = (rbOut (rbOut rb offset).2 size).1

/-- The position to read from is smaller than the ring, or no more is asked for than there
is, and the end of a full ring has not wrapped around. Behind the end, the masked position
is by chance the end itself. -/
def PeekFits (rb : RingBuffer) (offset size : UInt32) : Prop :=
  size = 0 ∨
  (offset ≤ rbUsedLen rb ∧ (rb.outPos + offset < rb.size ∨ size ≤ rbUsedLen rb - offset ∧
    ¬ (rbUsedLen rb - offset = rb.size ∧ 2 ^ 32 ≤ (rb.outPos + offset).toNat + rb.size.toNat))) ∨
  (rbUsedLen rb < offset ∧ rb.inPos = (rb.outPos + offset) &&& (rb.size - 1))

instance (rb : RingBuffer) (offset size : UInt32) : Decidable (PeekFits rb offset size) :=
  inferInstanceAs (Decidable (_ ∨ _))

/-- Where `rb_get` copies the right number of bytes, they are the right ones. -/
theorem Wf.peeks_iff_count (wf : rb.Wf) (offset size : UInt32) :
    Peeks rb offset size ↔ (rbGetCount rb offset size).toNat =
      min size.toNat ((rbUsedLen rb).toNat - offset.toNat) := by
  have used := wf.used
  obtain ⟨wf', -, -, left⟩ := wf.taken offset
  obtain ⟨-, -, bytes, -⟩ := wf'.taken size
  rw [left] at bytes
  have length : (rbOut (rbOut rb offset).2 size).1.length =
      min size.toNat ((rbUsedLen rb).toNat - offset.toNat) := by
    rw [bytes, List.length_take, List.length_drop, wf.length_contents]
  unfold Peeks
  rw [length]
  refine and_iff_left_of_imp fun count => ?_
  have get : rbGet rb offset size =
      (rb.buffer.rotate (rb.outPos + offset).toNat).take (rbGetCount rb offset size).toNat := by
    change read _ _ (rbGetCount rb offset size).toNat = _
    rw [wf.mask, wf.mask, Nat.mod_mod, read_eq (by rw [wf.length]; exact Nat.mod_lt _ wf.pos)
      (by rw [wf.length]; omega), ← wf.length, List.rotate_mod]
  rw [get, bytes, count, wf.rotate wf.length _ _ (UInt32.toNat_add ..)]
  rcases Nat.le_total offset.toNat (rbUsedLen rb).toNat with le | le
  · rw [contents, drop_take_rotate _ le (by rw [wf.length]; exact used), List.take_take]
  · have none : min size.toNat ((rbUsedLen rb).toNat - offset.toNat) = 0 := by omega
    have behind : rb.contents.drop offset.toNat = [] := by
      rw [List.drop_eq_nil_iff, wf.length_contents]
      exact le
    rw [none, List.take_zero, behind, List.take_nil]

/-- The last multiple of the size below 2^32. -/
theorem last_multiple {size pos : Nat} (divides : size ∣ 2 ^ 32) (small : pos < 2 ^ 32) :
    pos - pos % size + size ≤ 2 ^ 32 ∧
    (2 ^ 32 ≤ pos + size → pos - pos % size + size = 2 ^ 32) := by
  obtain ⟨k, total⟩ := divides
  have split := Nat.div_add_mod pos size
  have positive : 0 < size := by
    rcases Nat.eq_zero_or_pos size with rfl | positive
    · rw [Nat.zero_mul] at total
      exact absurd total (by decide)
    · exact positive
  have rest := Nat.mod_lt pos positive
  have before : pos / size < k := by
    rw [Nat.div_lt_iff_lt_mul positive, Nat.mul_comm, ← total]
    exact small
  have below : size * (pos / size) + size ≤ 2 ^ 32 := by
    rw [← Nat.mul_succ, total]
    exact Nat.mul_le_mul_left size before
  refine ⟨by omega, fun near => ?_⟩
  have last : k ≤ pos / size + 1 := by
    by_contra more
    have next : size * (pos / size + 1 + 1) ≤ 2 ^ 32 := by
      rw [total]
      exact Nat.mul_le_mul_left size (by omega)
    rw [Nat.mul_succ, Nat.mul_succ] at next
    omega
  have end_le : 2 ^ 32 ≤ size * (pos / size) + size := by
    rw [← Nat.mul_succ, total]
    exact Nat.mul_le_mul_left size last
  omega

theorem Wf.peeks_iff_fits (wf : rb.Wf) (offset size : UInt32) :
    Peeks rb offset size ↔ PeekFits rb offset size := by
  rw [wf.peeks_iff_count, rbGetCount, toNat_min]
  unfold PeekFits
  have used := wf.used
  have positive := wf.pos
  have width := rb.size.toNat_lt
  have masked := wf.mask (rb.outPos + offset)
  have position := (rb.outPos + offset).toNat_lt
  have zero : (0 : UInt32).toNat = 0 := rfl
  rw [← UInt32.toNat_inj (a := size), zero, UInt32.lt_iff_toNat_lt (a := rbUsedLen rb),
    UInt32.le_iff_toNat_le (a := offset)]
  rcases Nat.lt_or_ge (rbUsedLen rb).toNat offset.toNat with behind | within
  · -- nothing is left behind the offset
    have same : rb.inPos = (rb.outPos + offset) &&& (rb.size - 1) ↔
        (rb.inPos - ((rb.outPos + offset) &&& (rb.size - 1))).toNat = 0 := by
      have := rb.inPos.toNat_lt
      have := ((rb.outPos + offset) &&& (rb.size - 1)).toNat_lt
      rw [UInt32.toNat_sub, ← UInt32.toNat_inj]
      omega
    rw [same]
    omega
  · obtain ⟨k, small, power⟩ := wf.power
    have divides : rb.size.toNat ∣ 2 ^ 32 := by
      rw [power]
      exact Nat.pow_dvd_pow 2 small.le
    obtain ⟨last, near⟩ := last_multiple divides position
    have rest := Nat.mod_lt (rb.outPos + offset).toNat positive
    have first := Nat.mod_eq_of_lt (a := (rb.outPos + offset).toNat) (b := rb.size.toNat)
    have left : (rbUsedLen rb - offset).toNat = (rbUsedLen rb).toNat - offset.toNat :=
      UInt32.toNat_sub_of_le _ _ (UInt32.le_iff_toNat_le.mpr within)
    have base : ((rb.outPos + offset) - ((rb.outPos + offset) &&& (rb.size - 1))).toNat =
        (rb.outPos + offset).toNat - (rb.outPos + offset).toNat % rb.size.toNat := by
      rw [UInt32.toNat_sub_of_le _ _ (UInt32.le_iff_toNat_le.mpr _), masked]
      rw [masked]
      exact Nat.mod_le ..
    -- what the code computes is what is left and the multiple of the size that is masked off
    have sum : rb.inPos - ((rb.outPos + offset) &&& (rb.size - 1)) = (rbUsedLen rb - offset) +
        ((rb.outPos + offset) - ((rb.outPos + offset) &&& (rb.size - 1))) := by
      rw [rbUsedLen]
      generalize (rb.outPos + offset) &&& (rb.size - 1) = m
      grind
    rw [sum, UInt32.toNat_add, base, left, UInt32.lt_iff_toNat_lt, UInt32.le_iff_toNat_le,
      ← UInt32.toNat_inj, left]
    omega

/-- In every ring that calls lead to, `rb_get` agrees with `rb_out` under `PeekFits` only. -/
theorem peeks_iff {buffer : List UInt8} (init : rbInit buffer size = some rb)
    (length : buffer.length = size.toNat) (calls : List RbCall) (offset n : UInt32) :
    Peeks (after rbCall rb calls) offset n ↔ PeekFits (after rbCall rb calls) offset n :=
  (ring_follows init length calls).wf.peeks_iff_fits offset n

/-- Two bytes that lie around the end, seen from the second. -/
theorem peeks_four : Peeks (after rbCall fourRing
    [.rbIn [1, 2, 3] (by decide), .rbOut 2, .rbIn [4, 5] (by decide)]) 1 2 :=
  (peeks_iff init_fourRing rfl _ 1 2).mpr (by decide)

/-- The positions are past the size: one byte is stored, and `rb_get` finds four. -/
theorem peek_too_long :
    rbInit [0, 0, 0, 0] 4 = some fourRing ∧
    (let rb := after rbCall fourRing
        [.rbIn [1, 2, 3] (by decide), .rbOut 2, .rbIn [4, 5, 6] (by decide), .rbOut 3]
     rb.contents = [6] ∧ rbGetCount rb 0 4 = 4 ∧ rbGet rb 0 4 = [6, 3, 4, 5] ∧
      (rbOut (rbOut rb 0).2 4).1 = [6] ∧ ¬ Peeks rb 0 4) := by
  refine ⟨rfl, rfl, by decide, by decide, by decide, fun peeks => ?_⟩
  exact absurd peeks.1 (by decide)

end RingBuffer
