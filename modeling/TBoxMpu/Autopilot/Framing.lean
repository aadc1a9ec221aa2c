import TBoxMpu.Autopilot.Receive
import Mathlib.Algebra.Order.BigOperators.Group.List

/-!
# What is handed on of a stream of frames

A frame in a chunk of its own is handed on up to the first byte of its end mark. Whenever a
chunk ends elsewhere bytes are lost for good: a call that hands a message on keeps nothing of
what follows it but a shortened copy, and a call that hands none on drops a byte at least.
-/

namespace Ap

def apFrame (body : List UInt8) : List UInt8 :=
  startMark ++ body ++ endMark

/-- The part of a frame that `end_index - start_index + 1` bytes from its start are. -/
def apCut (body : List UInt8) : List UInt8 :=
  startMark ++ body ++ [0xb2]

/-- Neither mark occurs in the body. -/
def Clean (body : List UInt8) : Prop :=
  ¬ startMark <:+: body ∧ ¬ endMark <:+: body

/-! ### Marks in memory and in lists -/

theorem isStart_iff (msg : Mem) (i : Nat) : isStart msg i = true ↔ bytesAt msg i 4 = startMark := by
  simp [isStart, bytesAt, startMark, List.range_succ, and_assoc]

theorem isEnd_iff (msg : Mem) (i : Nat) : isEnd msg i = true ↔ bytesAt msg i 4 = endMark := by
  simp [isEnd, bytesAt, endMark, List.range_succ, and_assoc]

theorem bytesAt_getElem? {msg : Mem} {s n k : Nat} (inside : k < n) :
    (bytesAt msg s n)[k]? = some (msg (s + k)) := by
  simp [bytesAt, inside]

/-- A stretch of what is shown. -/
theorem bytesAt_drop_take (msg : Mem) {s n i k : Nat} (fits : i + k ≤ n) :
    bytesAt msg (s + i) k = ((bytesAt msg s n).drop i).take k := by
  apply List.ext_getElem?
  intro j
  by_cases inside : j < k
  · rw [bytesAt_getElem? inside, List.getElem?_take_of_lt inside, List.getElem?_drop,
      bytesAt_getElem? (by omega), Nat.add_assoc]
  · rw [List.getElem?_eq_none (by rw [bytesAt_length]; omega), List.getElem?_eq_none]
    rw [List.length_take, List.length_drop, bytesAt_length]
    omega

theorem mark_iff {msg : Mem} {v : List UInt8} (shown : bytesAt msg 0 v.length = v) {i : Nat}
    (fits : i + 4 ≤ v.length) {mark : List UInt8} (four : mark.length = 4) :
    bytesAt msg i 4 = mark ↔ mark <+: v.drop i := by
  have piece : bytesAt msg (0 + i) 4 = ((bytesAt msg 0 v.length).drop i).take 4 :=
    bytesAt_drop_take msg fits
  rw [Nat.zero_add, shown] at piece
  rw [piece, List.prefix_iff_eq_take, four, eq_comm]

/-- What the next call sees: the bytes kept and the chunk. -/
theorem bytesAt_append (msg : Mem) (len : Nat) (chunk : List UInt8) (stale : Mem) :
    bytesAt (apAppend msg len chunk stale) 0 (len + chunk.length) =
      bytesAt msg 0 len ++ chunk := by
  apply List.ext_getElem?
  intro k
  rw [List.getElem?_append, bytesAt_length]
  by_cases kept : k < len
  · rw [if_pos kept, bytesAt_getElem? kept, bytesAt_getElem? (by omega), Nat.zero_add, apAppend,
      if_pos kept]
  · rw [if_neg kept]
    by_cases inside : k - len < chunk.length
    · rw [bytesAt_getElem? (by omega), Nat.zero_add, apAppend, if_neg kept,
        List.getElem?_eq_getElem inside, Option.getD_some]
    · rw [List.getElem?_eq_none (by rw [bytesAt_length]; omega), List.getElem?_eq_none (by omega)]

/-- What a call keeps: the first byte, and what follows `start` without the last byte. -/
theorem bytesAt_copyDown (msg : Mem) {start len : Nat} (inside : start < len) :
    bytesAt (copyDown msg start len) 0 (len - start - 1) =
      (msg 0 :: bytesAt msg (start + 1) (len - start - 1)).dropLast := by
  apply List.ext_getElem?
  intro k
  rw [List.dropLast_eq_take, List.length_cons, bytesAt_length, Nat.add_sub_cancel]
  by_cases kept : k < len - start - 1
  · rw [bytesAt_getElem? kept, List.getElem?_take_of_lt kept, Nat.zero_add, copyDown_apply]
    cases k with
    | zero => rw [if_neg (by omega), List.getElem?_cons_zero]
    | succ k =>
      rw [if_pos (by omega), List.getElem?_cons_succ, bytesAt_getElem? (by omega)]
      congr 2
      omega
  · rw [List.getElem?_eq_none (by rw [bytesAt_length]; omega), List.getElem?_eq_none]
    rw [List.length_take]
    omega

/-! ### Useful bytes -/

/-- A start mark or the beginning of one. -/
def Opens (v : List UInt8) : Prop :=
  startMark <+: v ∨ (v ≠ [] ∧ v <+: startMark)

instance (v : List UInt8) : Decidable (Opens v) :=
  inferInstanceAs (Decidable (_ ∨ _))

/-- The bytes from the first place on that a message can begin at. -/
def useful : List UInt8 → Nat
  | [] => 0
  | b :: v => if Opens (b :: v) then v.length + 1 else useful v

theorem useful_le_length (v : List UInt8) : useful v ≤ v.length := by
  induction v with
  | nil => exact Nat.le_refl 0
  | cons b v ih =>
    rw [useful, List.length_cons]
    split_ifs <;> omega

theorem useful_le_cons (b : UInt8) (v : List UInt8) : useful v ≤ useful (b :: v) := by
  have short := useful_le_length v
  rw [useful]
  split_ifs <;> omega

/-- What opens with more bytes behind it opened before. -/
theorem Opens.of_append {v c : List UInt8} (ne : v ≠ []) (opens : Opens (v ++ c)) : Opens v := by
  rcases opens with mark | ⟨-, part⟩
  · rcases List.prefix_or_prefix_of_prefix mark (List.prefix_append v c) with whole | begun
    · exact .inl whole
    · exact .inr ⟨ne, begun⟩
  · exact .inr ⟨ne, (List.prefix_append v c).trans part⟩

theorem useful_append (v c : List UInt8) : useful (v ++ c) ≤ useful v + c.length := by
  induction v with
  | nil => rw [List.nil_append, useful, Nat.zero_add]; exact useful_le_length c
  | cons b v ih =>
    rw [List.cons_append, useful]
    split_ifs with opens
    · have before : Opens (b :: v) := Opens.of_append (List.cons_ne_nil b v) opens
      rw [useful, if_pos before, List.length_append]
      omega
    · exact ih.trans (Nat.add_le_add_right (useful_le_cons b v) _)

theorem useful_of_start {v : List UInt8} {s : Nat} (mark : startMark <+: v.drop s) :
    v.length - s ≤ useful v := by
  induction v generalizing s with
  | nil => simp
  | cons b v ih =>
    cases s with
    | zero =>
      rw [useful, if_pos (.inl mark)]
      simp
    | succ s =>
      rw [List.length_cons, Nat.add_sub_add_right]
      exact (ih mark).trans (useful_le_cons b v)

/-- Behind the rest of an end mark only the bytes count that follow it, without the last one. -/
theorem useful_kept (x : UInt8) (r : List UInt8) :
    useful (x :: 0x5e :: 0x38 :: 0xa2 :: r).dropLast ≤ r.length - 1 := by
  cases r with
  | nil => simp [useful, Opens, startMark, List.cons_prefix_cons]
  | cons b r =>
    have rest := useful_le_length (b :: r).dropLast
    rw [List.length_dropLast] at rest
    simpa [useful, Opens, startMark, List.cons_prefix_cons] using rest

/-! ### One call over a buffer with nothing behind it -/

/-- The memory shows `w` and zeros behind it. -/
structure Shows (msg : Mem) (w : List UInt8) : Prop where
  bytes : bytesAt msg 0 w.length = w
  zero : ∀ i, w.length ≤ i → msg i = 0

theorem Shows.start {msg : Mem} {w : List UInt8} (shows : Shows msg w) {s : Nat}
    (mark : isStart msg s = true) : s + 4 ≤ w.length ∧ startMark <+: w.drop s := by
  have inside : s + 4 ≤ w.length := by
    by_contra short
    have last := shows.zero (s + 3) (by omega)
    simp [isStart, last] at mark
  exact ⟨inside, (mark_iff shows.bytes inside rfl).mp ((isStart_iff msg s).mp mark)⟩

theorem Shows.end {msg : Mem} {w : List UInt8} (shows : Shows msg w) {e : Nat}
    (mark : isEnd msg e = true) : e + 4 ≤ w.length ∧ endMark <+: w.drop e := by
  have inside : e + 4 ≤ w.length := by
    by_contra short
    have last := shows.zero (e + 3) (by omega)
    simp [isEnd, last] at mark
  exact ⟨inside, (mark_iff shows.bytes inside rfl).mp ((isEnd_iff msg e).mp mark)⟩

/-- A message of a whole number of blocks leaves its end mark as it is. -/
theorem LeavesRest.aligned {proc : Proc} (leaves : LeavesRest proc) (msg : Mem) {s m i : Nat}
    (blocks : m % 16 = 7) (behind : s + m ≤ i + 1) : proc msg s m i = msg i := by
  apply leaves
  unfold decryptEnd
  omega

/-- What a call keeps and hands on is paid for by useful bytes. -/
theorem recv_budget {proc : Proc} (leaves : LeavesRest proc) {msg : Mem} {w : List UInt8}
    (shows : Shows msg w) :
    let r := apRecvProc proc msg w.length
    (∀ h, r.handed = some h → h.length % 16 = 7 →
      useful (bytesAt r.msg 0 r.len) + (h.length + 3) ≤ useful w ∧
        (useful w ≤ useful (bytesAt r.msg 0 r.len) + (h.length + 3) →
          useful (bytesAt r.msg 0 r.len) = 0)) ∧
    (r.handed = none →
      useful (bytesAt r.msg 0 r.len) < useful w ∨ useful (bytesAt r.msg 0 r.len) = 0) := by
  simp only [apRecvProc]
  rcases @apScan_start msg w.length w.length 0 (by omega) with
    ⟨s, first, ⟨e, last, eq⟩ | ⟨none, eq⟩⟩ | ⟨none, eq⟩
  · rw [eq]
    obtain ⟨-, inside, started, -⟩ := first
    obtain ⟨low, high, ended, -⟩ := last
    obtain ⟨-, opens⟩ := shows.start started
    obtain ⟨room, r, closes⟩ := shows.end ended
    refine ⟨fun h handed blocks => ?_, nofun⟩
    obtain rfl : bytesAt msg s (e - s + 1) = h := Option.some.inj handed
    rw [bytesAt_length] at blocks ⊢
    -- what follows the message is the rest of its end mark and `r`
    have rest : bytesAt (proc msg s (e - s + 1)) (e + 1) (w.length - e - 1) =
        0x5e :: 0x38 :: 0xa2 :: r := by
      have same : bytesAt (proc msg s (e - s + 1)) (e + 1) (w.length - e - 1) =
          bytesAt msg (e + 1) (w.length - e - 1) := by
        apply List.map_congr_left
        intro k _
        exact leaves.aligned msg blocks (by omega)
      have piece : bytesAt msg (0 + (e + 1)) (w.length - e - 1) =
          ((bytesAt msg 0 w.length).drop (e + 1)).take (w.length - e - 1) :=
        bytesAt_drop_take msg (by omega)
      rw [Nat.zero_add, shows.bytes, List.take_of_length_le (by rw [List.length_drop]; omega),
        ← List.drop_drop, ← closes] at piece
      rw [same, piece]
      rfl
    have count : w.length = e + 4 + r.length := by
      have total := congrArg List.length closes
      rw [List.length_append, List.length_drop, show endMark.length = 4 from rfl] at total
      omega
    have kept := useful_kept (proc msg s (e - s + 1) 0) r
    have begun := useful_of_start opens
    rw [bytesAt_copyDown _ high, rest]
    constructor <;> omega
  · rw [eq]
    obtain ⟨-, inside, started, -⟩ := first
    have begun := useful_of_start (shows.start started).2
    refine ⟨nofun, fun _ => .inl ?_⟩
    have short := useful_le_length (bytesAt (copyDown msg s w.length) 0 (w.length - s - 1))
    rw [bytesAt_length] at short
    show useful (bytesAt (copyDown msg s w.length) 0 (w.length - s - 1)) < useful w
    omega
  · rw [eq]
    exact ⟨nofun, fun _ => .inr rfl⟩

/-! ### Runs -/

/-- Nothing behind the received bytes. -/
def noStale : Nat → Mem := fun _ _ => 0

theorem apAppend_shows (msg : Mem) (len : Nat) (chunk : List UInt8) :
    Shows (apAppend msg len chunk (noStale 0)) (bytesAt msg 0 len ++ chunk) where
  bytes := by
    rw [List.length_append, bytesAt_length]
    exact bytesAt_append msg len chunk _
  zero := by
    intro i behind
    rw [List.length_append, bytesAt_length] at behind
    rw [apAppend, if_neg (by omega), List.getElem?_eq_none (by omega)]
    rfl

/-- All messages handed on are paid for by the chunks; where nothing is left over every chunk
was one message. -/
theorem receive_budget {proc : Nat → Proc} (leaves : ∀ n, LeavesRest (proc n))
    {chunks : List (List UInt8)} (full : ∀ c ∈ chunks, c ≠ []) {n : Nat} {msg : Mem} {len : Nat}
    {hs : List (List UInt8)} (run : apReceive proc noStale n msg len chunks = hs)
    (blocks : ∀ h ∈ hs, h.length % 16 = 7) :
    (hs.map fun h => h.length + 3).sum ≤
        useful (bytesAt msg 0 len) + (chunks.map List.length).sum ∧
      (useful (bytesAt msg 0 len) = 0 →
        (chunks.map List.length).sum ≤ (hs.map fun h => h.length + 3).sum →
        chunks.map List.length = hs.map fun h => h.length + 3) := by
  induction chunks generalizing n msg len hs with
  | nil =>
    subst run
    exact ⟨Nat.zero_le _, fun _ _ => rfl⟩
  | cons chunk chunks ih =>
    have some := List.length_pos_of_ne_nil (full chunk List.mem_cons_self)
    have total : (bytesAt msg 0 len ++ chunk).length = len + chunk.length := by
      rw [List.length_append, bytesAt_length]
    obtain ⟨handing, keeping⟩ := recv_budget (leaves n) (apAppend_shows msg len chunk)
    have grown := useful_append (bytesAt msg 0 len) chunk
    rw [total] at handing keeping
    simp only [apReceive, show noStale n = noStale 0 from rfl] at run
    generalize apRecvProc (proc n) (apAppend msg len chunk (noStale 0)) (len + chunk.length) = r
      at handing keeping run
    subst run
    have later := ih (fun c mem => full c (List.mem_cons_of_mem chunk mem)) rfl
      (fun h mem => blocks h (List.mem_append_right _ mem))
    cases handed : r.handed with
    | none =>
      have dropped := keeping handed
      simp only [Option.toList_none, List.nil_append, List.map_cons, List.sum_cons]
      constructor
      · omega
      · intro empty paid
        omega
    | some h =>
      obtain ⟨paid, last⟩ := handing h handed (blocks h (by simp [handed]))
      simp only [Option.toList_some, List.singleton_append, List.map_cons, List.sum_cons]
      constructor
      · omega
      · intro empty all
        have nothing := last (by omega)
        have whole : chunk.length = h.length + 3 := by omega
        rw [whole, later.2 nothing (by omega)]

theorem apCut_length (body : List UInt8) : (apCut body).length + 3 = (apFrame body).length := by
  simp [apCut, apFrame, startMark, endMark]

/-- If all frames are handed on whatever lies behind the received bytes, each came alone. -/
theorem chunks_of_cuts {proc : Nat → Proc} (leaves : ∀ n, LeavesRest (proc n))
    {bodies chunks : List (List UInt8)} (blocks : ∀ b ∈ bodies, b.length % 16 = 2)
    (full : ∀ c ∈ chunks, c ≠ []) (cutting : chunks.flatten = (bodies.map apFrame).flatten)
    {msg : Mem} (handed : apReceive proc noStale 0 msg 0 chunks = bodies.map apCut) :
    chunks = bodies.map apFrame := by
  have sizes : (bodies.map apCut).map (fun h => h.length + 3) =
      (bodies.map apFrame).map List.length := by
    rw [List.map_map, List.map_map]
    exact List.map_congr_left fun body _ => apCut_length body
  have aligned : ∀ h ∈ bodies.map apCut, h.length % 16 = 7 := by
    intro h mem
    obtain ⟨body, inside, rfl⟩ := List.mem_map.mp mem
    have size := blocks body inside
    simp only [apCut, startMark, List.length_append, List.length_cons, List.length_nil]
    omega
  have bytes : (chunks.map List.length).sum = ((bodies.map apFrame).map List.length).sum := by
    rw [← List.length_flatten, ← List.length_flatten, cutting]
  obtain ⟨-, exact⟩ := receive_budget leaves full handed aligned
  have same := exact rfl (by rw [sizes, bytes])
  rw [sizes] at same
  exact List.eq_iff_flatten_eq.mpr ⟨cutting, same⟩

/-! ### One frame in one chunk -/

/-- In front of the end mark of a frame there is none. -/
theorem no_early_end {body : List UInt8} (clean : ¬ endMark <:+: body) {t : Nat}
    (inside : t < body.length) : ¬ endMark <+: body.drop t ++ endMark := by
  intro early
  by_cases long : 4 ≤ (body.drop t).length
  · have piece : endMark <+: body.drop t := List.prefix_of_prefix_length_le early
      (List.prefix_append _ _) long
    exact clean (piece.isInfix.trans (List.drop_suffix t body).isInfix)
  · -- at most three bytes of the body: the mark would begin again inside itself
    have some : (body.drop t).length ≠ 0 := by
      rw [List.length_drop]
      omega
    generalize body.drop t = front at early long some
    match front with
    | [] => exact some rfl
    | [a] => simp [endMark] at early
    | [a, b] => simp [endMark] at early
    | [a, b, c] => simp [endMark] at early
    | _ :: _ :: _ :: _ :: rest => simp at long

theorem apFrame_drop {body : List UInt8} {t : Nat} (inside : t ≤ body.length) :
    (apFrame body).drop (4 + t) = body.drop t ++ endMark := by
  rw [apFrame, List.append_assoc, ← List.drop_drop, List.drop_left' (by rfl),
    List.drop_append_of_le_length inside]

theorem apFrame_length (body : List UInt8) : (apFrame body).length = body.length + 8 := by
  simp [apFrame, startMark, endMark]

/-- A call that gets one whole frame behind at most three kept bytes hands it on up to its end
mark and keeps three bytes. -/
theorem whole_frame (proc : Proc) (msg stale : Mem) {len : Nat} (kept : len = 0 ∨ len = 3)
    {body : List UInt8} (clean : Clean body) :
    let r := apRecvProc proc (apAppend msg len (apFrame body) stale)
      (len + (apFrame body).length)
    r.handed = some (apCut body) ∧ r.len = 3 := by
  have shown := bytesAt_append msg len (apFrame body) stale
  generalize apAppend msg len (apFrame body) stale = m at shown ⊢
  have size : (bytesAt msg 0 len ++ apFrame body).length = len + (apFrame body).length := by
    rw [List.length_append, bytesAt_length]
  rw [← size] at shown
  have behind : ∀ k, (bytesAt msg 0 len ++ apFrame body).drop (len + k) =
      (apFrame body).drop k := by
    intro k
    rw [← List.drop_drop, List.drop_left' (bytesAt_length msg 0 len)]
  have whole := behind 0
  rw [Nat.add_zero, List.drop_zero] at whole
  have long := apFrame_length body
  -- the frame begins at `len`
  have opening : m len = 0x5f := by
    have first := congrArg (·[len]?) shown
    simp only [bytesAt_getElem? (show len < (bytesAt msg 0 len ++ apFrame body).length by omega),
      List.getElem?_append_right (Nat.le_of_eq (bytesAt_length msg 0 len)), bytesAt_length,
      Nat.sub_self, Nat.zero_add] at first
    exact Option.some.inj first
  have start : First (isStart m) 0 (len + (apFrame body).length) len := by
    refine ⟨Nat.zero_le _, by omega, ?_, fun j _ before => ?_⟩
    · rw [isStart_iff, mark_iff shown (by omega) rfl, whole, apFrame, List.append_assoc]
      exact List.prefix_append _ _
    · rcases kept with rfl | rfl
      · omega
      · have three : j = 0 ∨ j = 1 ∨ j = 2 := by omega
        rcases three with rfl | rfl | rfl <;> simp [isStart, opening]
  have ending : First (isEnd m) (len + 4) (len + (apFrame body).length)
      (len + 4 + body.length) := by
    refine ⟨by omega, by omega, ?_, fun j low before => ?_⟩
    · rw [isEnd_iff, mark_iff shown (by omega) rfl, Nat.add_assoc, behind,
        apFrame_drop (Nat.le_refl _), List.drop_length]
      exact List.prefix_rfl
    · obtain ⟨t, rfl⟩ := Nat.exists_eq_add_of_le low
      have inside : t < body.length := by omega
      by_contra found
      rw [Bool.not_eq_false, isEnd_iff, mark_iff shown (by omega) rfl, Nat.add_assoc, behind,
        apFrame_drop (by omega)] at found
      exact no_early_end clean.2 inside found
  have message : bytesAt m len (len + 4 + body.length - len + 1) = apCut body := by
    have piece : bytesAt m (0 + len) (len + 4 + body.length - len + 1) =
        ((bytesAt m 0 (bytesAt msg 0 len ++ apFrame body).length).drop len).take
          (len + 4 + body.length - len + 1) := bytesAt_drop_take m (by omega)
    rw [Nat.zero_add, shown, whole] at piece
    rw [piece, apFrame, apCut, List.take_append, List.take_of_length_le]
    · congr 1
      rw [List.length_append, show startMark.length = 4 from rfl,
        show len + 4 + body.length - len + 1 - (4 + body.length) = 1 by omega]
      rfl
    · rw [List.length_append, show startMark.length = 4 from rfl]
      omega
  simp only [apRecvProc]
  rcases @apScan_start m (len + (apFrame body).length) (len + (apFrame body).length) 0
    (by omega) with ⟨s, first, ⟨e, last, eq⟩ | ⟨none, -⟩⟩ | ⟨none, -⟩
  · obtain rfl : s = len := first.unique start
    obtain rfl : e = s + 4 + body.length := last.unique ending
    rw [eq]
    exact ⟨congrArg some message, by show _ - _ - 1 = 3; omega⟩
  · obtain rfl : s = len := first.unique start
    have found := none _ ending.1 ending.2.1
    rw [ending.2.2.1] at found
    cases found
  · have found := none _ start.1 start.2.1
    rw [start.2.2.1] at found
    cases found

/-- Frames that come in chunks of their own are all handed on. -/
theorem whole_frames (proc : Nat → Proc) (stale : Nat → Mem) {bodies : List (List UInt8)}
    (clean : ∀ b ∈ bodies, Clean b) (n : Nat) (msg : Mem) {len : Nat} (kept : len = 0 ∨ len = 3) :
    apReceive proc stale n msg len (bodies.map apFrame) = bodies.map apCut := by
  induction bodies generalizing n msg len with
  | nil => rfl
  | cons body bodies ih =>
    obtain ⟨handed, three⟩ :=
      whole_frame (proc n) msg (stale n) kept (clean body List.mem_cons_self)
    rw [List.map_cons, apReceive, List.map_cons]
    simp only [handed, Option.toList_some, List.singleton_append, List.cons.injEq, true_and]
    exact ih (fun b mem => clean b (List.mem_cons_of_mem body mem)) _ _ (.inr three)

/-! ### Complete frames -/

theorem handed_last {proc : Proc} {msg : Mem} {len : Nat} {h : List UInt8}
    (handed : (apRecvProc proc msg len).handed = some h) : h.getLast? = some 0xb2 := by
  simp only [apRecvProc] at handed
  rcases @apScan_start msg len len 0 (by omega) with
    ⟨s, first, ⟨e, last, eq⟩ | ⟨none, eq⟩⟩ | ⟨none, eq⟩
  · rw [eq] at handed
    obtain rfl : bytesAt msg s (e - s + 1) = h := Option.some.inj handed
    obtain ⟨low, -, mark, -⟩ := last
    have byte : msg e = 0xb2 := by
      simp only [isEnd, Bool.and_eq_true, beq_iff_eq] at mark
      exact mark.1.1.1
    rw [List.getLast?_eq_getElem?, bytesAt_length, bytesAt_getElem? (by omega),
      show s + (e - s + 1 - 1) = e by omega, byte]
  · rw [eq] at handed
    cases handed
  · rw [eq] at handed
    cases handed

theorem receive_last (proc : Nat → Proc) (stale : Nat → Mem) {chunks : List (List UInt8)}
    {n : Nat} {msg : Mem} {len : Nat} :
    ∀ h ∈ apReceive proc stale n msg len chunks, h.getLast? = some 0xb2 := by
  induction chunks generalizing n msg len with
  | nil => exact fun _ mem => absurd mem List.not_mem_nil
  | cons chunk chunks ih =>
    intro h mem
    rcases List.mem_append.mp mem with now | later
    · exact handed_last (Option.mem_toList.mp now)
    · exact ih h later

/-- Whatever lies behind the received bytes, the messages handed on are `messages`. -/
def HandsOn (proc : Nat → Proc) (chunks messages : List (List UInt8)) : Prop :=
  ∀ stale msg, apReceive proc stale 0 msg 0 chunks = messages

/-- Complete frames are handed on only if there are none at all. Cut off after the first byte of
their end mark, frames of whole cipher blocks are handed on exactly if each is a chunk. -/
theorem ap_framing (proc : Nat → Proc) (leaves : ∀ n, LeavesRest (proc n))
    (bodies : List (List UInt8)) (clean : ∀ b ∈ bodies, Clean b) (chunks : List (List UInt8))
    (full : ∀ c ∈ chunks, c ≠ []) (cutting : chunks.flatten = (bodies.map apFrame).flatten) :
    (HandsOn proc chunks (bodies.map apFrame) ↔ bodies = []) ∧
      ((∀ b ∈ bodies, b.length % 16 = 2) →
        (HandsOn proc chunks (bodies.map apCut) ↔ chunks = bodies.map apFrame)) := by
  refine ⟨⟨fun hands => ?_, fun none => ?_⟩, fun blocks => ⟨fun hands => ?_, fun alone => ?_⟩⟩
  · cases bodies with
    | nil => rfl
    | cons body bodies =>
      have last := @receive_last proc noStale chunks 0 (noStale 0) 0 (apFrame body)
      rw [hands, List.map_cons] at last
      have wrong := last List.mem_cons_self
      simp [apFrame, endMark] at wrong
  · subst none
    have empty : chunks = [] := by
      cases chunks with
      | nil => rfl
      | cons c cs => simp [full c List.mem_cons_self] at cutting
    subst empty
    exact fun _ _ => rfl
  · exact chunks_of_cuts leaves blocks full cutting (hands noStale (noStale 0))
  · subst alone
    exact fun stale msg => whole_frames proc stale clean 0 msg (.inl rfl)

/-- Messages shorter than a block are not decrypted: the buffer stays as it is. -/
def noBlocks : Nat → Proc := fun _ msg _ _ => msg

theorem noBlocks_leaves (n : Nat) : LeavesRest (noBlocks n) :=
  fun _ _ _ _ _ => rfl

theorem ap_framing_alone : HandsOn noBlocks [apFrame [1, 2]] [apCut [1, 2]] :=
  ((ap_framing noBlocks noBlocks_leaves [[1, 2]] (by simp only [Clean]; decide)
    [apFrame [1, 2]] (by decide) rfl).2 (by decide)).mpr rfl

/-- Of two frames in one chunk the second one is not handed on, the first one not whole. -/
theorem second_frame_lost : ¬ ∀ (proc : Nat → Proc) (bodies chunks : List (List UInt8)),
    (∀ n, LeavesRest (proc n)) → (∀ b ∈ bodies, Clean b) → (∀ c ∈ chunks, c ≠ []) →
    chunks.flatten = (bodies.map apFrame).flatten →
    HandsOn proc chunks (bodies.map apFrame) := by
  intro claim
  have handed := claim noBlocks [[1, 2], [3, 4]] [apFrame [1, 2] ++ apFrame [3, 4]]
    noBlocks_leaves (by simp only [Clean]; decide) (by decide) (by decide) noStale (noStale 0)
  have seen : apReceive noBlocks noStale 0 (noStale 0) 0 [apFrame [1, 2] ++ apFrame [3, 4]] =
      [apCut [1, 2]] := by decide
  rw [seen] at handed
  exact absurd handed (by decide)

end Ap
