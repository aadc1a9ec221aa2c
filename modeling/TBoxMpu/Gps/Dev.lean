import Mathlib.Data.UInt
import TBoxMpu.Lib.Lines

/-!
# Sentences from the receiver

`gps_dev_recv`: the port is read as it delivers, a sentence ends at CR and LF, and what is no whole
sentence is kept for the next read. The byte in front of `recv_buf` is read as well.
-/

namespace Gps

/-! ### Receiving -/

/-- `sizeof(recv_buf)` -/
def recvBufSize : Nat := 1024

/-- `sizeof(msg)` -/
def msgSize : Nat := 512

/-- The loop over `recv_buf`: `prev` is `recv_buf[i - 1]`, `msg` its first `j` bytes. It ends with
the sentences given to `gps_decode` and with `msg`, or without it if `tm_start` failed. `none`: a
byte is written outside `msg`. -/
def recvLoop (timers : Nat → Bool) :
    Nat → UInt8 → List UInt8 → List UInt8 → Option (List (List UInt8) × Option (List UInt8))
  | _, _, msg, [] => some ([], some msg)
  | k, prev, msg, b :: bytes =>
    if prev = 13 ∧ b = 10 then
      -- msg[j - 1] = '\0'
      if msg = [] then none
      else if timers k then
        (recvLoop timers (k + 1) b [] bytes).map fun (got, last) => (msg.dropLast :: got, last)
      else some ([msg.dropLast], none)
    else if b ≠ 0 then
      if msg.length < msgSize then recvLoop timers k b (msg ++ [b]) bytes else none
    else recvLoop timers k b msg bytes

/-- What `read` returns, at most what there is room for, or -1, and what each `tm_start` does. -/
structure GpsRead where
  count : Option Nat
  timers : Nat → Bool

/-- The bytes that the port has still to deliver, the first `last_recv_cnt` bytes of `recv_buf`,
and the sentences decoded so far. -/
structure GpsPort where
  left : List UInt8
  carry : List UInt8
  got : List (List UInt8)

/-- `gps_dev_recv`, where `before` is the byte in front of `recv_buf`. If a timer does not start,
`last_recv_cnt` stays. -/
def GpsPort.recv (before : UInt8) (p : GpsPort) (r : GpsRead) : Option GpsPort :=
  match r.count with
  | none => some p
  | some n =>
    let cnt := min n (recvBufSize - p.carry.length)
    (recvLoop r.timers 0 before [] (p.carry ++ p.left.take cnt)).map fun (got, last) =>
      ⟨p.left.drop cnt, last.getD p.carry, p.got ++ got⟩

/-- Reads, one after the other. -/
def GpsPort.run (before : UInt8) : GpsPort → List GpsRead → Option GpsPort
  | p, [] => some p
  | p, r :: reads => (p.recv before r).bind fun p => p.run before reads

def GpsPort.start (stream : List UInt8) : GpsPort := ⟨stream, [], []⟩

/-- The bytes that are no NUL. -/
def text (bytes : List UInt8) : List UInt8 := bytes.filter (· ≠ 0)

/-! ### One read -/

theorem text_append (first second : List UInt8) :
    text (first ++ second) = text first ++ text second :=
  List.filter_append ..

/-- Where no NUL stands behind a CR, a CR at the end is seen behind the NULs as well. -/
theorem last_text {bytes : List UInt8} {c : UInt8} (last : (text bytes).getLast? = some c)
    (apart : ¬ [c, 0] <:+: bytes) : bytes.getLast? = some c := by
  induction bytes using List.reverseRecOn with
  | nil => cases last
  | append_singleton bytes b ih =>
    rw [text_append] at last
    by_cases nul : b = 0
    · subst nul
      rw [show text [(0 : UInt8)] = [] from rfl, List.append_nil] at last
      have inside := ih last fun inner => apart (inner.trans (List.prefix_append _ _).isInfix)
      obtain ⟨front, rfl⟩ := List.getLast?_eq_some_iff.mp inside
      exact absurd ⟨front, [], by simp⟩ apart
    · have kept : text [b] = [b] := by simp [text, nul]
      rw [kept] at last
      rwa [List.getLast?_concat] at last ⊢

/-- The loop splits the text, as long as every open line fits. -/
theorem recvLoop_split {timers : Nat → Bool} (works : ∀ k, timers k = true) (k : Nat)
    {prev : UInt8} {msg bytes : List UInt8} (link : prev = 13 ↔ msg.getLast? = some 13)
    (apart : ¬ [13, 0] <:+: prev :: bytes)
    (short : ∀ front, front <+: text bytes → (Lines.split 13 10 msg front).2.length ≤ msgSize) :
    recvLoop timers k prev msg bytes =
      some ((Lines.split 13 10 msg (text bytes)).1,
        some (Lines.split 13 10 msg (text bytes)).2) := by
  induction bytes generalizing k prev msg with
  | nil => rfl
  | cons b bytes ih =>
    have apartRest : ¬ [13, 0] <:+: b :: bytes :=
      fun inner => apart (inner.trans (List.suffix_cons prev (b :: bytes)).isInfix)
    by_cases nul : b = 0
    · subst nul
      have same : text (0 :: bytes) = text bytes := by simp [text]
      have noCr : prev ≠ 13 := by
        rintro rfl
        exact apart ⟨[], bytes, rfl⟩
      have link : (0 : UInt8) = 13 ↔ msg.getLast? = some 13 :=
        ⟨fun wrong => absurd wrong (by decide), fun last => absurd (link.mpr last) noCr⟩
      rw [same] at short ⊢
      rw [recvLoop, if_neg (fun h => noCr h.1), if_neg (not_not_intro rfl)]
      exact ih k link apartRest short
    · have kept : text (b :: bytes) = b :: text bytes := by simp [text, nul]
      rw [kept] at short ⊢
      have rest : ∀ front, front <+: text bytes →
          (Lines.split 13 10 (Lines.splitByte 13 10 msg b).2 front).2.length ≤ msgSize :=
        fun front part => short (b :: front) (List.cons_prefix_cons.mpr ⟨rfl, part⟩)
      rw [Lines.split]
      by_cases ended : msg.getLast? = some 13 ∧ b = 10
      · obtain ⟨last, rfl⟩ := ended
        have done : Lines.splitByte 13 10 msg (10 : UInt8) = ([msg.dropLast], []) :=
          if_pos ⟨last, rfl⟩
        have some' : msg ≠ [] := by
          rintro rfl
          cases last
        rw [done] at rest ⊢
        rw [recvLoop, if_pos ⟨link.mpr last, rfl⟩, if_neg some', if_pos (works k),
          ih (k + 1) (by simp) apartRest rest]
        rfl
      · have more : Lines.splitByte 13 10 msg b = ([], msg ++ [b]) := if_neg ended
        have room : msg.length < msgSize := by
          have size := rest [] List.nil_prefix
          rw [more, Lines.split, List.length_append] at size
          exact size
        have link' : b = 13 ↔ (msg ++ [b]).getLast? = some 13 := by
          rw [List.getLast?_concat, Option.some.injEq]
        rw [more] at rest ⊢
        rw [recvLoop, if_neg fun h => ended ⟨link.mp h.1, h.2⟩, if_pos nul, if_pos room,
          ih k link' apartRest rest]
        rfl

/-! ### Any reads -/

/-- What has been read of the stream: its lines are decoded and its open line is kept. -/
def GpsPort.Read (stream : List UInt8) (p : GpsPort) : Prop :=
  ∃ front, stream = front ++ p.left ∧ Lines.split 13 10 [] (text front) = (p.got, p.carry)

/-- A stream whose open lines fit `msg`, and in which no NUL stands right behind a CR. -/
structure Readable (stream : List UInt8) : Prop where
  apart : ¬ [13, 0] <:+: stream
  short : ∀ front, front <+: text stream → (Lines.split 13 10 [] front).2.length ≤ msgSize

variable {before : UInt8} {stream front left carry : List UInt8} {got : List (List UInt8)}

/-- The open line itself holds no end of line and no NUL. -/
theorem carry_open (parts : Lines.split 13 10 [] (text front) = (got, carry)) :
    Lines.split 13 10 [] carry = ([], carry) ∧ text carry = carry := by
  have same : carry = (Lines.split 13 10 [] (text front)).2 := by rw [parts]
  constructor
  · refine Lines.split_open ?_
    rw [List.nil_append, same]
    exact Lines.split_clean (by simp) _
  · refine List.filter_eq_self.mpr fun c mem => ?_
    have part : carry <:+ [] ++ text front := same ▸ Lines.split_suffix [] (text front)
    exact (List.mem_filter.mp (part.subset mem)).2

/-- In the buffer, too, no NUL stands behind a CR. -/
theorem buffer_apart (apart : ¬ [13, 0] <:+: front ++ left) (outside : before ≠ 13)
    (parts : Lines.split 13 10 [] (text front) = (got, carry)) {chunk : List UInt8}
    (next : chunk <+: left) : ¬ [13, 0] <:+: before :: (carry ++ chunk) := by
  obtain ⟨-, clean⟩ := carry_open parts
  intro inside
  rcases List.infix_cons_iff.mp inside with start | inside
  · exact outside (List.cons_prefix_cons.mp start).1.symm
  · rcases Lines.pair_infix_append inside with old | new | ⟨last, nul⟩
    · have mem : (0 : UInt8) ∈ text carry := by
        rw [clean]
        exact old.subset (by simp)
      simp [text] at mem
    · exact apart (new.trans (next.isInfix.trans (List.suffix_append front left).isInfix))
    · have part : (Lines.split 13 10 [] (text front)).2 <:+ [] ++ text front :=
        Lines.split_suffix [] (text front)
      rw [parts] at part
      obtain ⟨first, same⟩ := part
      rw [List.nil_append] at same
      obtain ⟨body, rfl⟩ := List.getLast?_eq_some_iff.mp last
      have last : (text front).getLast? = some 13 := by
        rw [← same, ← List.append_assoc, List.getLast?_concat]
      have apartFront : ¬ [13, 0] <:+: front :=
        fun inner => apart (inner.trans (List.prefix_append front left).isInfix)
      obtain ⟨start, rfl⟩ := List.getLast?_eq_some_iff.mp (last_text last apartFront)
      obtain ⟨more, rfl⟩ := next
      cases chunk with
      | nil => cases nul
      | cons c chunk =>
        cases nul
        exact apart ⟨start, chunk ++ more, by simp⟩

/-- A read decodes the lines that it completes. -/
theorem recv_read {p : GpsPort} {r : GpsRead} (readable : Readable stream)
    (outside : before ≠ 13) (works : ∀ k, r.timers k = true) (read : p.Read stream) :
    ∃ p', p.recv before r = some p' ∧ p'.Read stream ∧
      p'.left = p.left.drop (min (r.count.getD 0) (recvBufSize - p.carry.length)) := by
  obtain ⟨left, carry, got⟩ := p
  obtain ⟨front, rfl, parts⟩ := read
  have parts : Lines.split 13 10 [] (text front) = (got, carry) := parts
  cases counted : r.count with
  | none =>
    refine ⟨⟨left, carry, got⟩, by rw [GpsPort.recv, counted], ⟨front, rfl, parts⟩, ?_⟩
    rw [Option.getD_none, Nat.zero_min]
    rfl
  | some n =>
    obtain ⟨opened, clean⟩ := carry_open parts
    let cnt := min n (recvBufSize - carry.length)
    let chunk := left.take cnt
    have next : chunk <+: left := List.take_prefix _ _
    have whole : text (carry ++ chunk) = carry ++ text chunk := by rw [text_append, clean]
    have done : Lines.split 13 10 [] (carry ++ text chunk) =
        Lines.split 13 10 carry (text chunk) := by
      rw [Lines.split_append, opened]
      rfl
    -- every open line of the buffer is one of the stream
    have short : ∀ part, part <+: text (carry ++ chunk) →
        (Lines.split 13 10 [] part).2.length ≤ msgSize := by
      intro part inside
      rw [whole] at inside
      rcases List.prefix_or_prefix_of_prefix inside (List.prefix_append carry (text chunk)) with
        inner | ⟨later, rfl⟩
      · have room : carry.length ≤ msgSize := by
          have room := readable.short (text front) ⟨text left, (text_append _ _).symm⟩
          rwa [parts] at room
        have kept : Lines.split 13 10 [] part = ([], part) := by
          refine Lines.split_open fun ended => ?_
          have clean : ¬ [13, 10] <:+: (Lines.split 13 10 [] (text front)).2 :=
            Lines.split_clean (by simp) (text front)
          rw [parts] at clean
          exact clean (ended.trans inner.isInfix)
        rw [kept]
        exact inner.length_le.trans room
      · have piece : later <+: text left :=
          ((List.prefix_append_right_inj _).mp inside).trans (next.filter _)
        have short := readable.short (text front ++ later) (by
          rw [text_append]
          exact (List.prefix_append_right_inj _).mpr piece)
        rw [Lines.split_append, parts] at short
        rw [Lines.split_append, opened]
        exact short
    have loop : recvLoop r.timers 0 before [] (carry ++ chunk) = _ :=
      recvLoop_split works 0 (by simp [outside])
        (buffer_apart readable.apart outside parts next) short
    rw [whole, done] at loop
    refine ⟨⟨left.drop cnt, (Lines.split 13 10 carry (text chunk)).2,
      got ++ (Lines.split 13 10 carry (text chunk)).1⟩, ?_, ⟨front ++ chunk, ?_, ?_⟩, rfl⟩
    · rw [GpsPort.recv, counted]
      show (recvLoop r.timers 0 before [] (carry ++ chunk)).map _ = _
      rw [loop]
      rfl
    · rw [List.append_assoc, List.take_append_drop]
    · rw [text_append, Lines.split_append, parts]

/-- Every read that delivers takes a byte, as long as there is one. -/
theorem run_read {p : GpsPort} {reads : List GpsRead} (readable : Readable stream)
    (outside : before ≠ 13) (works : ∀ r ∈ reads, ∀ k, r.timers k = true)
    (read : p.Read stream) :
    ∃ p', p.run before reads = some p' ∧ p'.Read stream ∧
      p'.left.length ≤ p.left.length - reads.countP (0 < ·.count.getD 0) := by
  induction reads generalizing p with
  | nil => exact ⟨p, rfl, read, le_refl _⟩
  | cons r reads ih =>
    obtain ⟨next, now, nextRead, left⟩ :=
      recv_read readable outside (works r List.mem_cons_self) read
    obtain ⟨last, later, lastRead, bound⟩ :=
      ih (fun r mem => works r (List.mem_cons_of_mem _ mem)) nextRead
    refine ⟨last, by rw [GpsPort.run, now]; exact later, lastRead, bound.trans ?_⟩
    have room : p.carry.length ≤ msgSize := by
      obtain ⟨front, rfl, parts⟩ := read
      have room := readable.short (text front) ⟨text p.left, (text_append _ _).symm⟩
      rwa [parts] at room
    have sizes : msgSize < recvBufSize := by decide
    rw [left, List.length_drop, List.countP_cons]
    split
    next delivers =>
      have delivers := of_decide_eq_true delivers
      omega
    · omega

/-- However the port delivers a stream of sentences, they are decoded whole and in order, and no
byte is written outside `msg`. NULs between the bytes of a sentence make no difference. -/
theorem sentences_reassembled {before : UInt8} {sentences : List (List UInt8)}
    {rest stream : List UInt8} {reads : List GpsRead} (outside : before ≠ 13)
    (content : text stream = Lines.joined 13 10 sentences ++ rest)
    (apart : ¬ [13, 0] <:+: stream)
    (clean : ∀ line ∈ rest :: sentences, ¬ [13, 10] <:+: line)
    (short : ∀ line ∈ rest :: sentences, line.length < msgSize)
    (works : ∀ r ∈ reads, ∀ k, r.timers k = true) :
    ∃ p, (GpsPort.start stream).run before reads = some p ∧ p.got <+: sentences ∧
      (p.left = [] → p.got = sentences ∧ p.carry = rest) ∧
      (stream.length ≤ reads.countP (0 < ·.count.getD 0) → p.left = []) := by
  have closed : ∀ line ∈ sentences, ¬ [13, 10] <:+: line ++ [13] :=
    fun line mem => Lines.clean_concat (by decide) (clean line (List.mem_cons_of_mem _ mem))
  have whole : Lines.split 13 10 [] (text stream) = (sentences, rest) := by
    rw [content]
    exact Lines.split_joined closed (clean rest List.mem_cons_self)
  have readable : Readable stream := by
    refine ⟨apart, fun front part => ?_⟩
    rw [content] at part
    have bound : ∀ line ∈ sentences, line.length ≤ 511 :=
      fun line mem => Nat.le_of_lt_succ (short line (List.mem_cons_of_mem _ mem))
    exact Lines.split_short closed (clean rest List.mem_cons_self) bound
      (short rest List.mem_cons_self).le part
  have start : (GpsPort.start stream).Read stream := ⟨[], rfl, rfl⟩
  obtain ⟨p, run, ⟨front, same, parts⟩, bound⟩ := run_read readable outside works start
  refine ⟨p, run, ?_, ?_, ?_⟩
  · rw [same, text_append, Lines.split_append, parts] at whole
    exact ⟨_, (Prod.mk.inj whole).1⟩
  · intro done
    rw [done, List.append_nil] at same
    rw [same, parts] at whole
    exact Prod.mk.inj whole
  · intro enough
    rw [← List.length_eq_zero_iff]
    have size : (GpsPort.start stream).left.length = stream.length := rfl
    omega

/-- Two sentences and the beginning of a third, in reads of three bytes. -/
theorem sentences_reassembled_pieces :
    ∃ p, (GpsPort.start [36, 71, 0, 13, 10, 36, 13, 10, 65]).run 0
        (List.replicate 9 ⟨some 3, fun _ => true⟩) = some p ∧
      p.got <+: [[36, 71], [36]] ∧ (p.left = [] → p.got = [[36, 71], [36]] ∧ p.carry = [65]) ∧
      (9 ≤ (List.replicate 9 (⟨some 3, fun _ => true⟩ : GpsRead)).countP (0 < ·.count.getD 0) →
        p.left = []) := by
  refine sentences_reassembled (by decide) (by decide) (by decide) (by decide) (by decide) ?_
  intro r mem k
  rw [List.eq_of_mem_replicate mem]

end Gps
