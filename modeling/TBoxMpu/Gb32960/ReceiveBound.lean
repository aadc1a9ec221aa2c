import TBoxMpu.Gb32960.Receive

/-!
# The bound of the receive buffer

## Main result

`receive_safe_iff`: every store hits the buffer, whatever stands beyond the chunks, exactly
if no chunk ends with a start byte and every packet that 1025 bytes without another start
mark follow ends before the buffer does.

## Proof strategy

What is gathered was read since the last start mark (`Tracks`). When the buffer is full
and a plain byte comes, that was 1024 bytes ago, and by `Shape` the length given there does
not fit. Conversely such a length lets the buffer fill up.
-/

namespace Gb32960

variable {S : Type} {handle : List UInt8 → GbProt S → Int × GbProt S} {st : GbProt S}

/-- Whatever is done with a packet, the stores hit the buffer, and the result after each
chunk does not depend on what stands beyond. -/
def ReceiveSafe (st : GbProt S) (chunks : List (List UInt8)) : Prop :=
  ∀ handle, Keeps handle → ∀ k, ∃ ret st' packs, st'.stat.rcvbuf.length ≤ gbRcvbufSize ∧
    ∀ beyond : List UInt8, beyond.length = chunks.length →
      gbReceiveChunks handle st ((chunks.zip beyond).take k) = some (ret, st', packs)

/-- A packet followed by no start mark for so long that the buffer would be full gives a
length that fits. -/
def Bounded (s : List UInt8) : Prop :=
  ∀ p, StartMark s p → (∀ q, p < q → q ≤ p + gbRcvbufSize → ¬ StartMark s q) →
    p + gbRcvbufSize < s.length → 1 ≤ declared (s.drop p) ∧ declared (s.drop p) ≤ 998

/-! ### Full buffers -/

/-- What is gathered was read since the last start mark. -/
def Tracks (read : List (UInt8 × Bool)) (state : GbStat) : Prop :=
  state.rcvbuf ≠ [] → ∃ before byte plain, read = before ++ (byte, true) :: plain ∧
    (∀ look ∈ plain, look.2 = false) ∧ state.rcvbuf = byte :: plain.map Prod.fst

theorem Tracks.byte {read : List (UInt8 × Bool)} {state state' : GbStat} {byte : UInt8}
    {start complete : Bool} (tracks : Tracks read state) (shape : Shape state)
    (step : ByteStep state state' byte start complete) : Tracks (read ++ [(byte, start)]) state' := by
  intro begun
  cases step with
  | start _ buf => exact ⟨read, byte, [], rfl, nofun, buf⟩
  | skip _ _ buf => exact absurd buf begun
  | join _ busy buf _ =>
    obtain ⟨before, first, plain, rfl, unmarked, same⟩ :=
      tracks fun empty => busy (shape.idle_of_nil empty)
    refine ⟨before, first, plain ++ [(byte, false)], by simp, ?_, by simp [buf, same]⟩
    intro look mem
    rcases List.mem_append.mp mem with old | new
    · exact unmarked look old
    · rw [List.mem_singleton.mp new]

theorem ByteStep.fits {state state' : GbStat} {byte : UInt8} {start complete : Bool}
    (step : ByteStep state state' byte start complete)
    (stored : ¬ (start = false ∧ gbRcvbufSize ≤ state.rcvbuf.length)) :
    state'.rcvbuf.length ≤ gbRcvbufSize := by
  cases step with
  | start _ buf => simp [buf, gbRcvbufSize]
  | skip _ _ buf => simp [buf]
  | join _ _ buf _ =>
    rw [buf, List.length_append, List.length_singleton]
    simp only [true_and] at stored
    omega

/-- With the head read, an unfinished packet is shorter than it says, or says it is empty. -/
theorem Shape.unfinished {state : GbStat} (shape : Shape state) (busy : state.rcvstep ≠ .none)
    (long : 24 ≤ state.rcvbuf.length) :
    declared state.rcvbuf = 0 ∨ state.rcvbuf.length ≤ 24 + declared state.rcvbuf := by
  unfold Shape at shape
  cases step : state.rcvstep <;> simp only [step] at shape busy
  case none => exact absurd rfl busy
  all_goals omega

/-- `Bounded` over what the look ahead sees. -/
def LooksBounded (l : List (UInt8 × Bool)) : Prop :=
  ∀ before byte plain next after, l = before ++ (byte, true) :: (plain ++ (next, false) :: after) →
    plain.length + 1 = gbRcvbufSize → (∀ look ∈ plain, look.2 = false) →
    1 ≤ declared (byte :: plain.map Prod.fst) ∧ declared (byte :: plain.map Prod.fst) ≤ 998

theorem LooksBounded.left {l m : List (UInt8 × Bool)} (bounded : LooksBounded (l ++ m)) :
    LooksBounded l := by
  rintro before byte plain next after rfl
  exact bounded before byte plain next (after ++ m) (by simp)

theorem feed_safe (keeps : Keeps handle) (st : GbProt S) (read : List (UInt8 × Bool))
    {l : List (UInt8 × Bool)} (shape : Shape st.stat)
    (tracks : Tracks read st.stat) (fits : st.stat.rcvbuf.length ≤ gbRcvbufSize)
    (bounded : LooksBounded (read ++ l)) :
    ∃ ret st' packs, gbFeed handle st l = some (ret, st', packs) ∧
      st'.stat.rcvbuf.length ≤ gbRcvbufSize := by
  induction l generalizing st read with
  | nil => exact ⟨0, st, [], rfl, fits⟩
  | cons look rest ih =>
    obtain ⟨byte, start⟩ := look
    have rest_bounded : LooksBounded ((read ++ [(byte, start)]) ++ rest) := by simpa using bounded
    cases made : gbMakeupByte start byte st.stat with
    | none =>
      obtain ⟨rfl, full⟩ := gbMakeupByte_none.mp made
      have size : st.stat.rcvbuf.length = 1024 := le_antisymm fits full
      have begun : st.stat.rcvbuf ≠ [] := fun empty => by simp [empty] at size
      obtain ⟨before, first, plain, rfl, unmarked, same⟩ := tracks begun
      obtain ⟨data, short⟩ := bounded before first plain byte rest (by simp)
        (by rw [same] at size; simpa [gbRcvbufSize] using size) unmarked
      rw [← same] at data short
      by_cases busy : st.stat.rcvstep = .none
      · have whole := (shape.none_iff begun).mp busy
        omega
      · have unfinished := shape.unfinished busy (by omega)
        omega
    | some next =>
      obtain ⟨complete, stat⟩ := next
      obtain ⟨shape', step⟩ := shape.byte made
      have tracks' := tracks.byte shape step
      have fits' := step.fits fun refused => by
        cases made.symm.trans (gbMakeupByte_none.mpr refused)
      rw [gbFeed, made]
      cases complete with
      | false => exact ih { st with stat } _ shape' tracks' fits' rest_bounded
      | true =>
        simp only [Option.bind_some, if_true]
        rcases keeps stat.rcvbuf { st with stat } with ⟨going, same⟩ | ⟨ended, empty⟩
        · rw [if_pos going]
          have kept : Tracks (read ++ [(byte, start)]) (handle stat.rcvbuf { st with stat }).2.stat := by
            rw [Tracks, same.1]
            exact tracks'
          obtain ⟨ret, st', packs, fed, size⟩ := ih _ _ (shape'.kept same) kept
            (by rw [same.1]; exact fits') rest_bounded
          rw [fed]
          exact ⟨ret, st', stat.rcvbuf :: packs, rfl, size⟩
        · rw [if_neg ended]
          exact ⟨_, _, _, rfl, by simp [empty]⟩

theorem looks_mark_iff {s : List UInt8} {i : Nat} {byte : UInt8} {start : Bool}
    (seen : (looks 0 s)[i]? = some (byte, start)) : start = true ↔ StartMark s i := by
  rw [looks_mark] at seen
  obtain ⟨_, -, eq⟩ := Option.map_eq_some_iff.mp seen
  rw [← (Prod.mk.inj eq).2, decide_eq_true_iff]

theorem bounded_looks {s : List UInt8} (bounded : Bounded s) : LooksBounded (looks 0 s) := by
  intro before byte plain next after eq size unmarked
  have at_mark : (looks 0 s)[before.length]? = some (byte, true) := by
    rw [eq, List.getElem?_append_right (le_refl _), Nat.sub_self]
    rfl
  have others : ∀ q, before.length < q → q ≤ before.length + gbRcvbufSize → ¬ StartMark s q := by
    intro q above below
    obtain ⟨j, rfl⟩ : ∃ j, q = before.length + (j + 1) := ⟨q - before.length - 1, by omega⟩
    have seen : (looks 0 s)[before.length + (j + 1)]? = (plain ++ (next, false) :: after)[j]? := by
      rw [eq, List.getElem?_append_right (by omega), Nat.add_sub_cancel_left]
      rfl
    obtain ⟨b, unmarked_at⟩ : ∃ b, (looks 0 s)[before.length + (j + 1)]? = some (b, false) := by
      by_cases inside : j < plain.length
      · rw [List.getElem?_append_left inside, List.getElem?_eq_getElem inside] at seen
        exact ⟨plain[j].1, by rw [seen, ← unmarked _ (List.getElem_mem inside)]⟩
      · obtain rfl : j = plain.length := by omega
        rw [List.getElem?_append_right (le_refl _), Nat.sub_self] at seen
        exact ⟨next, seen⟩
    exact fun mark => nomatch (looks_mark_iff unmarked_at).mpr mark
  have bytes := looks_bytes 0 s
  rw [eq] at bytes
  have total := looks_length 0 s
  rw [eq] at total
  simp only [List.length_append, List.length_cons] at total
  have fits := bounded _ ((looks_mark_iff at_mark).mp rfl) others (by omega)
  have rest : s.drop before.length =
      (byte :: plain.map Prod.fst) ++ next :: after.map Prod.fst := by
    have size : (before.map Prod.fst).length = before.length := List.length_map ..
    rw [← bytes, List.map_append, ← size, List.drop_left]
    simp
  rw [rest, declared_append (by simp [gbRcvbufSize] at size ⊢; omega)] at fits
  exact fits

/-- A full buffer: the length that was given did not let the packet end before. -/
theorem feed_overflow (st : GbProt S) {l : List (UInt8 × Bool)} {r : Int × GbProt S × List (List UInt8)}
    (shape : Shape st.stat) (begun : 1 ≤ st.stat.rcvbuf.length)
    (fits : st.stat.rcvbuf.length ≤ gbRcvbufSize)
    (long : gbRcvbufSize < st.stat.rcvbuf.length + l.length)
    (plain : ∀ look ∈ l.take (gbRcvbufSize + 1 - st.stat.rcvbuf.length), look.2 = false)
    (h : gbFeed goOn st l = some r) :
    1 ≤ declared (st.stat.rcvbuf ++ l.map Prod.fst) ∧
      declared (st.stat.rcvbuf ++ l.map Prod.fst) ≤ 998 := by
  induction l generalizing st r with
  | nil => simp at long; omega
  | cons look rest ih =>
    obtain ⟨byte, start⟩ := look
    obtain ⟨room, left⟩ : ∃ k, gbRcvbufSize + 1 - st.stat.rcvbuf.length = k + 1 :=
      ⟨gbRcvbufSize - st.stat.rcvbuf.length, by omega⟩
    rw [left, List.take_succ_cons] at plain
    obtain rfl : start = false := plain (byte, start) (by simp)
    obtain ⟨⟨complete, stat⟩, made, h⟩ := Option.bind_eq_some_iff.mp h
    have stored : ¬ gbRcvbufSize ≤ st.stat.rcvbuf.length := fun full =>
      nomatch made.symm.trans (gbMakeupByte_none.mpr ⟨rfl, full⟩)
    obtain ⟨shape', step⟩ := shape.byte made
    cases step with
    | skip idle =>
      -- a packet that is complete within the buffer has a size that says so
      have begun' : st.stat.rcvbuf ≠ [] := List.ne_nil_of_length_pos begun
      obtain ⟨size, data⟩ := (shape.none_iff begun').mp idle
      rw [declared_append (by omega)]
      simp only [gbRcvbufSize] at stored
      omega
    | join _ busy buf done =>
      obtain ⟨r', fed⟩ : ∃ r', gbFeed goOn { st with stat } rest = some r' := by
        cases complete with
        | false => exact ⟨r, h⟩
        | true =>
          obtain ⟨r', fed, -⟩ := Option.map_eq_some_iff.mp h
          exact ⟨r', fed⟩
      have size : stat.rcvbuf.length = st.stat.rcvbuf.length + 1 := by simp [buf]
      have rest_plain : ∀ look ∈ rest.take (gbRcvbufSize + 1 - stat.rcvbuf.length),
          look.2 = false := by
        rw [size, show gbRcvbufSize + 1 - (st.stat.rcvbuf.length + 1) = room by omega]
        exact fun look mem => plain look (List.mem_cons_of_mem _ mem)
      have more : gbRcvbufSize < stat.rcvbuf.length + rest.length := by
        rw [List.length_cons] at long
        omega
      have next := ih { st with stat } shape' (by dsimp only; omega) (by dsimp only; omega) more
        rest_plain fed
      simpa [buf] using next

/-! ### The bound -/

theorem feed_one {byte : UInt8} {start : Bool} {ret : Int} {st' : GbProt S}
    {packs : List (List UInt8)} (h : gbFeed goOn st [(byte, start)] = some (ret, st', packs)) :
    ∃ complete, gbMakeupByte start byte st.stat = some (complete, st'.stat) := by
  obtain ⟨⟨complete, stat⟩, made, h⟩ := Option.bind_eq_some_iff.mp h
  refine ⟨complete, ?_⟩
  cases complete <;> cases h <;> exact made

/-- The two answers of the look ahead at a byte never lead to the same state. -/
theorem look_matters {state state' : GbStat} (shape : Shape state) {byte : UInt8} {c d : Bool}
    (seen : gbMakeupByte true byte state = some (c, state'))
    (unseen : gbMakeupByte false byte state = some (d, state')) : False := by
  cases (shape.byte seen).2 with
  | start head buf =>
    cases (shape.byte unseen).2 with
    | skip _ idle => exact absurd (head.symm.trans idle) nofun
    | join _ busy buf' _ =>
      rw [buf] at buf'
      have empty : state.rcvbuf = [] := by
        have len := congrArg List.length buf'
        simpa using len
      exact busy (shape.idle_of_nil empty)

/-- A stream that never leaves the buffer gives lengths that fit. -/
theorem feed_bounded (fresh : GbFresh st.stat) {s : List UInt8}
    {r : Int × GbProt S × List (List UInt8)} (h : gbFeed goOn st (looks 0 s) = some r) :
    Bounded s := by
  intro p mark others inside
  obtain ⟨ret, st', packs⟩ := r
  obtain rfl := feed_goOn h
  rw [(looks_split mark).2] at h
  obtain ⟨st₁, packs₁, packs₂, first, second, -⟩ := feed_split h
  have shape := (feed_sound goOn_keeps fresh.shape first).shape
  obtain ⟨⟨complete, stat⟩, made, fed⟩ := Option.bind_eq_some_iff.mp second
  obtain ⟨shape', step⟩ := shape.byte made
  cases step with
  | start head buf =>
    have size : ((looks 0 s).drop (p + 1)).length = s.length - (p + 1) := by
      rw [List.length_drop, looks_length]
    have plain : ∀ look ∈ ((looks 0 s).drop (p + 1)).take gbRcvbufSize, look.2 = false := by
      intro look mem
      obtain ⟨j, at_j⟩ := List.mem_iff_getElem?.mp mem
      have near : j < gbRcvbufSize := by
        have inside := (List.getElem?_eq_some_iff.mp at_j).1
        rw [List.length_take] at inside
        omega
      rw [List.getElem?_take_of_lt near, List.getElem?_drop] at at_j
      refine Bool.eq_false_iff.mpr fun marked => ?_
      exact others (p + 1 + j) (by omega) (by omega) ((looks_mark_iff at_j).mp marked)
    have full := feed_overflow { st₁ with stat } shape' (by simp [buf])
      (by simp [buf, gbRcvbufSize]) (by dsimp only; rw [size, buf, List.length_singleton]; omega)
      (by simpa [buf] using plain) fed
    have here : s.drop p = gbStartByte :: s.drop (p + 1) := by
      obtain ⟨within, at_p⟩ := List.getElem?_eq_some_iff.mp mark.1
      rw [List.drop_eq_getElem_cons within, at_p]
    dsimp only at full
    rwa [buf, List.map_drop, looks_bytes, List.singleton_append, ← here] at full

theorem receive_safe_iff (fresh : GbFresh st.stat) {chunks : List (List UInt8)} :
    ReceiveSafe st chunks ↔
      (∀ chunk ∈ chunks, chunk.getLast? ≠ some gbStartByte) ∧ Bounded chunks.flatten := by
  constructor
  · intro safe
    have last : ∀ chunk ∈ chunks, chunk.getLast? ≠ some gbStartByte := by
      intro chunk mem last
      obtain ⟨k, l, m, split⟩ := chunk_split mem last
      obtain ⟨ret, st', packs, -, same⟩ := safe goOn goOn_keeps k
      -- the byte beyond the chunk decides whether a packet starts
      have answer : ∀ x, ∃ st₁ packs₁ complete, gbFeed goOn st l = some (0, st₁, packs₁) ∧
          gbMakeupByte (startsAt gbStartByte x) gbStartByte st₁.stat =
            some (complete, st'.stat) := by
        intro x
        obtain ⟨beyond, size, -, eq, -⟩ := split x
        have run := same beyond size
        rw [gbReceiveChunks_eq, eq] at run
        obtain rfl := feed_goOn run
        obtain ⟨st₁, packs₁, packs₂, first, second, -⟩ := feed_split run
        obtain ⟨complete, made⟩ := feed_one second
        exact ⟨st₁, packs₁, complete, first, made⟩
      obtain ⟨st₁, packs₁, c, first, seen⟩ := answer gbStartByte
      obtain ⟨st₂, packs₂, d, first', unseen⟩ := answer 0
      obtain ⟨-, rfl, -⟩ : (0 : Int) = 0 ∧ st₁ = st₂ ∧ packs₁ = packs₂ := by
        simpa using first.symm.trans first'
      exact look_matters (feed_sound goOn_keeps fresh.shape first).shape seen unseen
    obtain ⟨ret, st', packs, -, same⟩ := safe goOn goOn_keeps chunks.length
    have run := same (List.replicate chunks.length 0) List.length_replicate
    rw [List.take_of_length_le (by simp), gbReceiveChunks_eq, looks_chunks, List.map_fst_zip] at run
    · exact ⟨last, feed_bounded fresh run⟩
    · simp
    · exact fun chunk mem => last chunk.1 (List.of_mem_zip mem).1
  · rintro ⟨last, bounded⟩ handle keeps k
    -- no chunk ends with a start byte: the bytes beyond do not matter
    have looked : ∀ beyond : List UInt8, beyond.length = chunks.length →
        (((chunks.zip beyond).take k).flatMap fun chunk => looks chunk.2 chunk.1) =
          looks 0 (chunks.take k).flatten := by
      intro beyond size
      rw [looks_chunks, List.map_take, List.map_fst_zip (by omega)]
      exact fun chunk mem => last chunk.1 (List.of_mem_zip (List.mem_of_mem_take mem)).1
    have zeros := List.length_replicate (n := chunks.length) (a := (0 : UInt8))
    have whole : ((chunks.zip (List.replicate chunks.length 0)).flatMap fun chunk =>
        looks chunk.2 chunk.1) = looks 0 chunks.flatten := by
      rw [looks_chunks fun chunk mem => last chunk.1 (List.of_mem_zip mem).1,
        List.map_fst_zip (by simp)]
    rw [← List.take_append_drop k (chunks.zip _), List.flatMap_append, looked _ zeros] at whole
    obtain ⟨ret, st', packs, fed, size⟩ := feed_safe keeps st [] fresh.shape
      (fun begun => absurd fresh.empty begun) (by simp [fresh.empty])
      (LooksBounded.left (whole ▸ bounded_looks bounded))
    refine ⟨ret, st', packs, size, fun beyond long => ?_⟩
    rw [gbReceiveChunks_eq, looked beyond long]
    exact fed

theorem receive_safe_answer : ReceiveSafe receiver [answer [0x2A]] := by
  have fresh : GbFresh receiver.stat := ⟨rfl, rfl⟩
  refine (receive_safe_iff fresh).mpr ⟨by decide, fun p _ _ inside => ?_⟩
  have short : [answer [0x2A]].flatten.length = 26 := by decide
  rw [short, gbRcvbufSize] at inside
  omega

/-- The head of a packet with 65535 bytes of data, and the first of them. -/
def oversized : List UInt8 := gbPackHead gbVarsInit protLogin 0x01 ++ [0xff, 0xff]

def zeros : List UInt8 := List.replicate 1001 0

/-- The data of an oversized packet runs out of the receive buffer. -/
theorem oversized_overflows : ¬ ReceiveSafe receiver [oversized, zeros] := by
  intro safe
  obtain ⟨ret, st', packs, -, same⟩ := safe goOn goOn_keeps 2
  have run := same [0, 0] rfl
  have last : ∀ chunk ∈ ([oversized, zeros].zip [(0 : UInt8), 0]).take 2,
      chunk.1.getLast? ≠ some gbStartByte := by
    have zeros_last : zeros.getLast? ≠ some gbStartByte := by
      rw [zeros, List.getLast?_replicate]
      decide
    intro chunk mem
    rcases List.mem_cons.mp mem with rfl | mem
    · decide
    · obtain rfl := List.mem_singleton.mp mem
      exact zeros_last
  have stream : ((([oversized, zeros].zip [(0 : UInt8), 0]).take 2).map Prod.fst).flatten =
      oversized ++ zeros := by simp
  rw [gbReceiveChunks_eq, looks_chunks last, stream] at run
  have fresh : GbFresh receiver.stat := ⟨rfl, rfl⟩
  have size : (oversized ++ zeros).length = 1025 := by
    rw [List.length_append, zeros, List.length_replicate]
    rfl
  have others : ∀ q, 0 < q → q ≤ 0 + gbRcvbufSize → ¬ StartMark (oversized ++ zeros) q := by
    rintro q pos - ⟨-, second⟩
    by_cases head : q + 1 < 24
    · have plain : ∀ q < 23, 0 < q → oversized[q + 1]? ≠ some gbStartByte := by decide
      rw [List.getElem?_append_left (by exact head)] at second
      exact plain q (by omega) pos second
    · rw [List.getElem?_append_right (by exact Nat.le_of_not_lt head), zeros,
        List.getElem?_replicate] at second
      split at second <;> cases second
  have fits := feed_bounded fresh run 0 ⟨rfl, rfl⟩ others (by rw [size]; decide)
  rw [List.drop_zero, declared_append (by decide)] at fits
  exact absurd fits.2 (by decide)

end Gb32960
