import TBoxMpu.Gb32960.Protocol
import Mathlib.Data.List.GetD

/-!
# Receiving packets

`gb_makeup_pack` cuts the bytes received into packets, driven by the loop of
`gb_do_receive`. It looks one byte ahead for the start mark `##`, at the end of a chunk
beyond it: `beyond` is what stands there, and every statement is about all values of it.
A store outside the receive buffer is `none`.

## Proof strategy

A stream is read as its bytes, each with what the look ahead makes of it (`looks`), and
`gbFeed` is the receive loop over these. `Shape` says how the state of the automaton
follows from the bytes gathered, `ByteStep` what a byte can do to them.
-/

namespace Gb32960

variable {S : Type}

/-! ### The code -/

def gbRcvbufSize : Nat := 1024

def gbStartByte : UInt8 := 0x23

/-- A byte stored in the receive buffer, and the `switch` of `gb_makeup_pack` after it. The
flag tells that the packet is complete. -/
def gbStoreByte (byte : UInt8) (state : GbStat) : Bool × GbStat :=
  let state := { state with rcvbuf := state.rcvbuf ++ [byte] }
  match state.rcvstep with
  | .head =>
    (false, if state.rcvbuf.length = 22 then { state with rcvstep := .length } else state)
  | .length =>
    let state := { state with datalen := state.datalen * 256 + byte.toNat }
    (false, if state.rcvbuf.length = 24 then { state with rcvstep := .data } else state)
  | .data =>
    (false, if state.rcvbuf.length = 24 + state.datalen then { state with rcvstep := .check }
      else state)
  | .check => (true, { state with rcvstep := .none })
  -- between two packets: the byte is dropped
  | .none => (false, { state with rcvbuf := [], datalen := 0 })

/-- One round of the loop of `gb_makeup_pack`; `start` is its look at the byte and the one
after it. -/
def gbMakeupByte (start : Bool) (byte : UInt8) (state : GbStat) : Option (Bool × GbStat) :=
  let state :=
    -- wherever the mark is seen, a packet begins anew
    if start then { state with rcvbuf := [], datalen := 0, rcvstep := .head } else state
  if state.rcvbuf.length < gbRcvbufSize then some (gbStoreByte byte state) else none

/-- Whether the start mark is seen at a byte with `next` after it. -/
def startsAt (byte next : UInt8) : Bool := byte == gbStartByte && next == gbStartByte

/-- The result, the state and `uselen`. -/
def gbMakeupPack (beyond : UInt8) (state : GbStat) : List UInt8 → Nat →
    Option (Int × GbStat × Nat)
  | [], rlen => some (-1, state, rlen)
  | byte :: rest, rlen =>
    (gbMakeupByte (startsAt byte (rest.headD beyond)) byte state).bind fun (complete, state) =>
      if complete then some (0, state, rlen + 1) else gbMakeupPack beyond state rest (rlen + 1)

theorem gbMakeupPack_uselen {beyond : UInt8} {state state' : GbStat} {input : List UInt8}
    {rlen uselen : Nat} {res : Int}
    (h : gbMakeupPack beyond state input rlen = some (res, state', uselen)) :
    rlen ≤ uselen ∧ (res = 0 → rlen < uselen) := by
  induction input generalizing state rlen with
  | nil => cases h; exact ⟨le_refl _, nofun⟩
  | cons byte rest ih =>
    obtain ⟨⟨complete, state₁⟩, -, h⟩ := Option.bind_eq_some_iff.mp h
    dsimp only at h
    split at h
    · cases h; omega
    · obtain ⟨le, lt⟩ := ih h
      omega

/-- The loop of `gb_do_receive`; `handle` is what it does with a complete packet. The
packets are returned in the order in which they were complete. -/
def gbReceiveLoop (handle : List UInt8 → GbProt S → Int × GbProt S) (beyond : UInt8)
    (st : GbProt S) (input : List UInt8) : Option (Int × GbProt S × List (List UInt8)) :=
  match _made : gbMakeupPack beyond st.stat input 0 with
  | none => none
  | some (res, stat, uselen) =>
    if res ≠ 0 then some (0, { st with stat }, [])
    else
      let (ret, st) := handle stat.rcvbuf { st with stat }
      -- one chunk may hold several packets
      if ret = 0 ∧ uselen < input.length then
        (gbReceiveLoop handle beyond st (input.drop uselen)).map fun (ret, st, packs) =>
          (ret, st, stat.rcvbuf :: packs)
      else some (ret, st, [stat.rcvbuf])
  termination_by input.length
  decreasing_by
    have used := (gbMakeupPack_uselen _made).2 (by omega)
    rw [List.length_drop]
    omega

/-- `input` is what `sock_recv` read, `none` if it failed. -/
def gbDoReceive (api : SockApi S) (beyond : UInt8) (input : Option (List UInt8))
    (st : GbProt S) : Option (Int × GbProt S) :=
  match input with
  | none => some (-1, gbReset api st)
  | some input => (gbReceiveLoop (gbHandlePack api) beyond st input).map fun (ret, st, _) => (ret, st)

/-- Chunks received one after the other, each with the byte beyond it, until the session
ends. -/
def gbReceiveChunks (handle : List UInt8 → GbProt S → Int × GbProt S) (st : GbProt S) :
    List (List UInt8 × UInt8) → Option (Int × GbProt S × List (List UInt8))
  | [] => some (0, st, [])
  | (chunk, beyond) :: rest =>
    (gbReceiveLoop handle beyond st chunk).bind fun (ret, st, packs) =>
      if ret = 0 then
        (gbReceiveChunks handle st rest).map fun (ret, st, more) => (ret, st, packs ++ more)
      else some (ret, st, packs)

/-! ### Bytes and what the look ahead makes of them -/

/-- Each byte with whether the start mark is seen there. -/
def looks (beyond : UInt8) : List UInt8 → List (UInt8 × Bool)
  | [] => []
  | byte :: rest => (byte, startsAt byte (rest.headD beyond)) :: looks beyond rest

theorem looks_bytes (beyond : UInt8) (s : List UInt8) : (looks beyond s).map Prod.fst = s := by
  induction s with
  | nil => rfl
  | cons byte rest ih => rw [looks, List.map_cons, ih]

theorem looks_length (beyond : UInt8) (s : List UInt8) : (looks beyond s).length = s.length := by
  rw [← List.length_map, looks_bytes]

theorem looks_append (beyond : UInt8) (s t : List UInt8) :
    looks beyond (s ++ t) = looks (t.headD beyond) s ++ looks beyond t := by
  induction s with
  | nil => rfl
  | cons byte rest ih =>
    rw [List.cons_append, looks, ih, looks, List.cons_append]
    cases rest <;> rfl

/-- Only a start byte at the end makes the byte beyond matter. -/
theorem looks_beyond {s : List UInt8} (last : s.getLast? ≠ some gbStartByte) (b c : UInt8) :
    looks b s = looks c s := by
  rcases List.eq_nil_or_concat s with rfl | ⟨s, byte, rfl⟩
  · rfl
  · have other : byte ≠ gbStartByte := by simpa using last
    -- the last byte cannot begin a mark, whatever follows
    simp [looks_append, looks, startsAt, beq_false_of_ne other]

/-- The start mark stands at this position. -/
def StartMark (s : List UInt8) (p : Nat) : Prop :=
  s[p]? = some gbStartByte ∧ s[p + 1]? = some gbStartByte

instance (s : List UInt8) (p : Nat) : Decidable (StartMark s p) := inferInstanceAs (Decidable (_ ∧ _))

/-- In a single chunk the look ahead sees the start marks. -/
theorem looks_mark (s : List UInt8) (i : Nat) :
    (looks 0 s)[i]? = s[i]?.map fun byte => (byte, decide (StartMark s i)) := by
  induction s generalizing i with
  | nil => simp [looks]
  | cons byte rest ih =>
    cases i with
    | zero =>
      cases rest with
      | nil => simp [looks, startsAt, StartMark, gbStartByte]
      | cons next rest =>
        simp only [looks, startsAt, StartMark, List.getElem?_cons_zero, Option.map_some,
          List.headD_cons, List.getElem?_cons_succ, Option.some.injEq, Prod.mk.injEq, true_and]
        rw [Bool.eq_iff_iff]
        simp
    | succ i =>
      rw [looks, List.getElem?_cons_succ, List.getElem?_cons_succ, ih]
      rfl

theorem looks_split {s : List UInt8} {p : Nat} (mark : StartMark s p) : p < s.length ∧
    looks 0 s = (looks 0 s).take p ++ (gbStartByte, true) :: (looks 0 s).drop (p + 1) := by
  have seen : (looks 0 s)[p]? = some (gbStartByte, true) := by
    rw [looks_mark, mark.1]
    simp [mark]
  obtain ⟨inside, at_p⟩ := List.getElem?_eq_some_iff.mp seen
  refine ⟨by rwa [looks_length] at inside, ?_⟩
  rw [← at_p, List.cons_getElem_drop_succ, List.take_append_drop]

/-- The receive loop byte by byte. -/
def gbFeed (handle : List UInt8 → GbProt S → Int × GbProt S) (st : GbProt S) :
    List (UInt8 × Bool) → Option (Int × GbProt S × List (List UInt8))
  | [] => some (0, st, [])
  | (byte, start) :: rest =>
    (gbMakeupByte start byte st.stat).bind fun (complete, stat) =>
      if complete then
        let (ret, st) := handle stat.rcvbuf { st with stat }
        if ret = 0 then
          (gbFeed handle st rest).map fun (ret, st, packs) => (ret, st, stat.rcvbuf :: packs)
        else some (ret, st, [stat.rcvbuf])
      else gbFeed handle { st with stat } rest

variable {handle : List UInt8 → GbProt S → Int × GbProt S} {st : GbProt S}

theorem gbFeed_append (l m : List (UInt8 × Bool)) : gbFeed handle st (l ++ m) =
    (gbFeed handle st l).bind fun (ret, st, packs) =>
      if ret = 0 then (gbFeed handle st m).map fun (ret, st, more) => (ret, st, packs ++ more)
      else some (ret, st, packs) := by
  induction l generalizing st with
  | nil => simp [gbFeed]
  | cons look rest ih =>
    obtain ⟨byte, start⟩ := look
    rw [List.cons_append, gbFeed, gbFeed]
    cases gbMakeupByte start byte st.stat with
    | none => rfl
    | some next =>
      obtain ⟨complete, stat⟩ := next
      cases complete with
      | false => exact ih
      | true =>
        simp only [Option.bind_some, if_true]
        generalize handle stat.rcvbuf { st with stat } = r
        obtain ⟨ret, st'⟩ := r
        dsimp only
        split
        · rw [ih]
          cases gbFeed handle st' rest with
          | none => rfl
          | some more =>
            obtain ⟨ret', st'', packs⟩ := more
            dsimp only [Option.bind_some, Option.map_some]
            split
            · cases gbFeed handle st'' m <;> rfl
            · rfl
        next stop => simp [stop]

/-- `gb_makeup_pack` reads up to a complete packet. -/
theorem gbFeed_makeup (beyond : UInt8) (input : List UInt8) (rlen : Nat) :
    gbFeed handle st (looks beyond input) =
      match gbMakeupPack beyond st.stat input rlen with
      | none => none
      | some (res, stat, uselen) =>
        if res ≠ 0 then some (0, { st with stat }, [])
        else
          let (ret, st) := handle stat.rcvbuf { st with stat }
          if ret = 0 then
            (gbFeed handle st (looks beyond (input.drop (uselen - rlen)))).map
              fun (ret, st, packs) => (ret, st, stat.rcvbuf :: packs)
          else some (ret, st, [stat.rcvbuf]) := by
  induction input generalizing st rlen with
  | nil => rfl
  | cons byte rest ih =>
    rw [looks, gbFeed, gbMakeupPack]
    cases gbMakeupByte (startsAt byte (rest.headD beyond)) byte st.stat with
    | none => rfl
    | some next =>
      obtain ⟨complete, stat⟩ := next
      cases complete with
      | true => simp
      | false =>
        simp only [Option.bind_some, Bool.false_eq_true, if_false]
        -- the bytes used so far are counted in both
        rw [ih (rlen + 1)]
        cases made : gbMakeupPack beyond stat rest (rlen + 1) with
        | none => rfl
        | some result =>
          obtain ⟨res, stat', uselen⟩ := result
          have used := (gbMakeupPack_uselen made).1
          have eq : uselen - rlen = uselen - (rlen + 1) + 1 := by omega
          dsimp only
          rw [eq, List.drop_succ_cons]

theorem gbReceiveLoop_eq (beyond : UInt8) (input : List UInt8) :
    gbReceiveLoop handle beyond st input = gbFeed handle st (looks beyond input) := by
  induction size : input.length using Nat.strong_induction_on generalizing st input with
  | _ size' ih =>
    rw [gbReceiveLoop, gbFeed_makeup beyond input 0]
    split
    next made => rw [made]
    next res stat uselen made =>
      rw [made]
      dsimp only
      split
      · rfl
      next complete =>
        have used := (gbMakeupPack_uselen made).2 (not_not.mp complete)
        generalize handle stat.rcvbuf { st with stat } = r
        obtain ⟨ret, st'⟩ := r
        dsimp only
        by_cases more : uselen < input.length
        · simp only [more, and_true, Nat.sub_zero]
          rw [ih _ (by rw [List.length_drop]; omega) _ rfl]
        · have rest : input.drop uselen = [] := List.drop_eq_nil_of_le (by omega)
          simp only [more, and_false, if_false, Nat.sub_zero, rest, looks, gbFeed, Option.map_some]
          split
          next going => rw [going]
          · rfl

theorem gbReceiveChunks_eq (chunks : List (List UInt8 × UInt8)) :
    gbReceiveChunks handle st chunks =
      gbFeed handle st (chunks.flatMap fun chunk => looks chunk.2 chunk.1) := by
  induction chunks generalizing st with
  | nil => rfl
  | cons chunk rest ih =>
    rw [gbReceiveChunks, List.flatMap_cons, gbFeed_append, gbReceiveLoop_eq]
    simp only [ih]

/-- Without a start byte at the end of a chunk the chunks read like one. -/
theorem looks_chunks {chunks : List (List UInt8 × UInt8)}
    (last : ∀ chunk ∈ chunks, chunk.1.getLast? ≠ some gbStartByte) :
    (chunks.flatMap fun chunk => looks chunk.2 chunk.1) =
      looks 0 (chunks.map Prod.fst).flatten := by
  induction chunks with
  | nil => rfl
  | cons chunk rest ih =>
    rw [List.flatMap_cons, ih fun c mem => last c (by simp [mem]), List.map_cons,
      List.flatten_cons, looks_append, looks_beyond (last chunk (by simp))]

/-! ### The automaton -/

/-- The length of the data unit as the head gives it. -/
def declared (pack : List UInt8) : Nat := (pack.getD 22 0).toNat * 256 + (pack.getD 23 0).toNat

/-- The state belongs to the bytes in the buffer. After a packet they stay there until the
next byte. -/
def Shape (state : GbStat) : Prop :=
  let len := state.rcvbuf.length
  match state.rcvstep with
  | .head => 1 ≤ len ∧ len < 22 ∧ state.datalen = 0
  | .length => len = 22 ∧ state.datalen = 0 ∨
      len = 23 ∧ state.datalen = (state.rcvbuf.getD 22 0).toNat
  | .data => 24 ≤ len ∧ state.datalen = declared state.rcvbuf ∧
      (state.datalen = 0 ∨ len < 24 + state.datalen)
  | .check => len = 24 + state.datalen ∧ state.datalen = declared state.rcvbuf ∧
      1 ≤ state.datalen
  | .none => state.rcvbuf = [] ∨ len = 25 + declared state.rcvbuf ∧ 1 ≤ declared state.rcvbuf

theorem declared_append {pack : List UInt8} (long : 24 ≤ pack.length) (rest : List UInt8) :
    declared (pack ++ rest) = declared pack := by
  rw [declared, declared, List.getD_append _ _ _ _ (by omega),
    List.getD_append _ _ _ _ (by omega)]

private theorem getD_concat (pack : List UInt8) (byte : UInt8) {i : Nat}
    (last : pack.length = i) : (pack ++ [byte]).getD i 0 = byte := by
  rw [List.getD_append_right _ _ _ _ (by omega), last, Nat.sub_self]
  rfl

/-- A byte after the start of a packet joins the buffer. -/
theorem Shape.join {state : GbStat} (shape : Shape state) (busy : state.rcvstep ≠ .none)
    (byte : UInt8) {complete : Bool} {state' : GbStat}
    (h : gbStoreByte byte state = (complete, state')) :
    Shape state' ∧ state'.rcvbuf = state.rcvbuf ++ [byte] ∧
      (complete = true ↔ state'.rcvstep = .none) := by
  unfold gbStoreByte at h
  unfold Shape at shape
  cases step : state.rcvstep with
  | none => exact absurd step busy
  | head =>
    simp only [step, Prod.mk.injEq] at h shape
    obtain ⟨rfl, rfl⟩ := h
    obtain ⟨pos, short, zero⟩ := shape
    split
    next full => exact ⟨.inl ⟨full, zero⟩, rfl, by simp⟩
    next more =>
      rw [List.length_append, List.length_singleton] at more
      refine ⟨?_, rfl, by simp⟩
      simp only [Shape, List.length_append, List.length_singleton]
      omega
  | length =>
    simp only [step, Prod.mk.injEq] at h shape
    obtain ⟨rfl, rfl⟩ := h
    -- the first byte of the length is the high one
    rcases shape with ⟨len, zero⟩ | ⟨len, high⟩
    · have low := getD_concat state.rcvbuf byte len
      rw [if_neg (by simp [len])]
      refine ⟨.inr ⟨by simp [len], ?_⟩, rfl, by simp⟩
      dsimp only
      rw [low, zero, Nat.zero_mul, Nat.zero_add]
    · have low := getD_concat state.rcvbuf byte len
      have first := List.getD_append state.rcvbuf [byte] 0 22 (by omega)
      rw [if_pos (by simp [len])]
      refine ⟨⟨by simp [len], ?_, ?_⟩, rfl, by simp⟩
      · dsimp only
        rw [declared, low, first, high]
      · simp only [List.length_append, List.length_singleton]
        omega
  | data =>
    simp only [step, Prod.mk.injEq] at h shape
    obtain ⟨rfl, rfl⟩ := h
    obtain ⟨long, head, open_⟩ := shape
    have same := declared_append long [byte]
    split
    next full =>
      simp only [List.length_append, List.length_singleton] at full
      refine ⟨?_, rfl, by simp⟩
      simp only [Shape, List.length_append, List.length_singleton]
      omega
    next more =>
      simp only [List.length_append, List.length_singleton] at more
      refine ⟨?_, rfl, by simp⟩
      simp only [Shape, List.length_append, List.length_singleton]
      omega
  | check =>
    simp only [step, Prod.mk.injEq] at h shape
    obtain ⟨rfl, rfl⟩ := h
    obtain ⟨long, head, pos⟩ := shape
    have same := declared_append (by omega : 24 ≤ state.rcvbuf.length) [byte]
    refine ⟨?_, rfl, by simp⟩
    simp only [Shape, List.length_append, List.length_singleton]
    omega

/-- What a byte can do: start a packet, be skipped between packets, or join the packet. -/
inductive ByteStep (state state' : GbStat) (byte : UInt8) : Bool → Bool → Prop
  | start : state'.rcvstep = .head → state'.rcvbuf = [byte] → ByteStep state state' byte true false
  | skip : state.rcvstep = .none → state'.rcvstep = .none → state'.rcvbuf = [] →
      ByteStep state state' byte false false
  | join (complete : Bool) : state.rcvstep ≠ .none → state'.rcvbuf = state.rcvbuf ++ [byte] →
      (complete = true ↔ state'.rcvstep = .none) → ByteStep state state' byte false complete

theorem Shape.byte {state state' : GbStat} {start complete : Bool} {byte : UInt8}
    (shape : Shape state) (h : gbMakeupByte start byte state = some (complete, state')) :
    Shape state' ∧ ByteStep state state' byte start complete := by
  unfold gbMakeupByte at h
  cases start with
  | true =>
    obtain ⟨rfl, rfl⟩ : false = complete ∧
        { state with rcvbuf := [byte], datalen := 0, rcvstep := .head } = state' := by
      simpa [gbRcvbufSize, gbStoreByte] using h
    exact ⟨⟨le_refl 1, (by decide : 1 < 22), rfl⟩, .start rfl rfl⟩
  | false =>
    simp only [Bool.false_eq_true, if_false, Option.ite_none_right_eq_some,
      Option.some.injEq] at h
    by_cases idle : state.rcvstep = .none
    · have eq := h.2
      simp only [gbStoreByte, idle, Prod.mk.injEq] at eq
      obtain ⟨rfl, rfl⟩ := eq
      exact ⟨.inl rfl, .skip idle rfl rfl⟩
    · obtain ⟨shape', buf, done⟩ := shape.join idle byte h.2
      exact ⟨shape', .join complete idle buf done⟩

/-- A byte is refused exactly when the buffer is full and it starts no packet. -/
theorem gbMakeupByte_none {state : GbStat} {start : Bool} {byte : UInt8} :
    gbMakeupByte start byte state = none ↔
      start = false ∧ gbRcvbufSize ≤ state.rcvbuf.length := by
  unfold gbMakeupByte
  cases start <;> simp [gbRcvbufSize]

theorem Shape.idle_of_nil {state : GbStat} (shape : Shape state) (empty : state.rcvbuf = []) :
    state.rcvstep = .none := by
  unfold Shape at shape
  cases step : state.rcvstep <;> simp [step, empty] at shape ⊢
  omega

/-- Once begun, a packet is complete exactly when it has its length and some data. -/
theorem Shape.none_iff {state : GbStat} (shape : Shape state) (begun : state.rcvbuf ≠ []) :
    state.rcvstep = .none ↔
      state.rcvbuf.length = 25 + declared state.rcvbuf ∧ 1 ≤ declared state.rcvbuf := by
  unfold Shape at shape
  cases step : state.rcvstep with
  | none =>
    simp only [step, begun, false_or] at shape
    exact ⟨fun _ => shape, fun _ => rfl⟩
  | head | length | data | check =>
    simp only [step, reduceCtorEq, false_iff] at shape ⊢
    omega

/-! ### The loop body -/

/-- The loop body leaves the receive state alone, or it ends the session and resets it. -/
def Keeps (handle : List UInt8 → GbProt S → Int × GbProt S) : Prop :=
  ∀ pack st, let (ret, st') := handle pack st
    ret = 0 ∧ st'.stat.rcvbuf = st.stat.rcvbuf ∧ st'.stat.rcvstep = st.stat.rcvstep ∧
      st'.stat.datalen = st.stat.datalen ∨
    ret ≠ 0 ∧ st'.stat.rcvbuf = []

theorem Keeps.going (keeps : Keeps handle) {pack : List UInt8}
    (going : (handle pack st).1 = 0) :
    (handle pack st).2.stat.rcvbuf = st.stat.rcvbuf ∧
      (handle pack st).2.stat.rcvstep = st.stat.rcvstep ∧
      (handle pack st).2.stat.datalen = st.stat.datalen := by
  rcases keeps pack st with ⟨-, same⟩ | ⟨ended, -⟩
  · exact same
  · exact absurd going ended

theorem Shape.kept {state state' : GbStat} (shape : Shape state)
    (same : state'.rcvbuf = state.rcvbuf ∧ state'.rcvstep = state.rcvstep ∧
      state'.datalen = state.datalen) : Shape state' := by
  unfold Shape at shape ⊢
  rw [same.1, same.2.1, same.2.2]
  exact shape

/-! ### No byte is made up -/

/-- The bytes of an unfinished packet. -/
def gathered (state : GbStat) : Nat := if state.rcvstep = .none then 0 else state.rcvbuf.length

/-- What comes out of a stream is made of its bytes, and every packet has some data. -/
structure FeedSound (st st' : GbProt S) (l : List (UInt8 × Bool)) (packs : List (List UInt8)) :
    Prop where
  shape : Shape st'.stat
  bytes : packs.flatten.length + gathered st'.stat ≤ gathered st.stat + l.length
  declared : ∀ pack ∈ packs, 1 ≤ declared pack

theorem feed_sound (keeps : Keeps handle) (shape : Shape st.stat) {l : List (UInt8 × Bool)}
    {st' : GbProt S} {packs : List (List UInt8)}
    (h : gbFeed handle st l = some (0, st', packs)) : FeedSound st st' l packs := by
  induction l generalizing st packs with
  | nil =>
    cases h
    exact ⟨shape, by simp, nofun⟩
  | cons look rest ih =>
    obtain ⟨byte, start⟩ := look
    obtain ⟨⟨complete, stat⟩, made, h⟩ := Option.bind_eq_some_iff.mp h
    obtain ⟨shape', step⟩ := shape.byte made
    -- every byte gathers at most one
    have grown : (if complete then stat.rcvbuf.length else gathered stat) ≤
        gathered st.stat + 1 := by
      cases step with
      | start step buf => simp [gathered, step, buf]
      | skip _ step buf => simp [gathered, step]
      | join complete busy buf done =>
        simp only [gathered, busy, if_false, buf, List.length_append, List.length_singleton]
        split
        · exact le_refl _
        · split <;> omega
    cases complete with
    | false =>
      simp only [Bool.false_eq_true, if_false] at grown
      obtain ⟨shape'', bytes, declared⟩ := ih shape' h
      exact ⟨shape'', by rw [List.length_cons]; dsimp only at bytes; omega, declared⟩
    | true =>
      simp only [if_true] at grown h
      have idle : stat.rcvstep = .none := by
        cases step with
        | join _ _ _ done => exact done.mp rfl
      have begun : stat.rcvbuf ≠ [] := by
        cases step with
        | join _ _ buf _ => simp [buf]
      have some_data := ((shape'.none_iff begun).mp idle).2
      split at h
      next going =>
        obtain ⟨⟨ret, st₂, more⟩, fed, eq⟩ := Option.map_eq_some_iff.mp h
        obtain ⟨rfl, rfl, rfl⟩ : ret = 0 ∧ st₂ = st' ∧ stat.rcvbuf :: more = packs := by
          simpa using eq
        have kept := keeps.going going
        obtain ⟨shape'', bytes, declared⟩ := ih (shape'.kept kept) fed
        -- a packet that was handled is gathered no more
        have none : gathered (handle stat.rcvbuf { st with stat }).2.stat = 0 := by
          rw [gathered, kept.2.1, if_pos idle]
        refine ⟨shape'', ?_, ?_⟩
        · simp only [List.flatten_cons, List.length_append, List.length_cons]
          omega
        · intro pack mem
          rcases List.mem_cons.mp mem with rfl | mem
          · exact some_data
          · exact declared pack mem
      next ended => exact absurd (Prod.mk.inj (Option.some.inj h)).1 ended

/-! ### Streams -/

/-- Nothing is gathered, as `gb_reset` leaves it. -/
structure GbFresh (state : GbStat) : Prop where
  empty : state.rcvbuf = []
  idle : state.rcvstep = .none

theorem GbFresh.shape {state : GbStat} (fresh : GbFresh state) : Shape state := by
  unfold Shape
  rw [fresh.idle]
  exact .inl fresh.empty

/-- A loop body that goes on to the next packet. -/
def goOn (_ : List UInt8) (st : GbProt S) : Int × GbProt S := (0, st)

theorem goOn_keeps : Keeps (@goOn S) := fun _ _ => .inl ⟨rfl, rfl, rfl, rfl⟩

theorem feed_goOn {l : List (UInt8 × Bool)} {ret : Int} {st' : GbProt S}
    {packs : List (List UInt8)} (h : gbFeed goOn st l = some (ret, st', packs)) : ret = 0 := by
  induction l generalizing st packs with
  | nil => cases h; rfl
  | cons look rest ih =>
    obtain ⟨⟨complete, stat⟩, -, h⟩ := Option.bind_eq_some_iff.mp h
    cases complete with
    | false => exact ih h
    | true =>
      obtain ⟨⟨ret', st'', more⟩, fed, eq⟩ := Option.map_eq_some_iff.mp h
      cases eq
      exact ih fed

theorem feed_split {l m : List (UInt8 × Bool)} {st' : GbProt S} {packs : List (List UInt8)}
    (h : gbFeed handle st (l ++ m) = some (0, st', packs)) :
    ∃ st₁ packs₁ packs₂, gbFeed handle st l = some (0, st₁, packs₁) ∧
      gbFeed handle st₁ m = some (0, st', packs₂) ∧ packs = packs₁ ++ packs₂ := by
  rw [gbFeed_append] at h
  obtain ⟨⟨ret, st₁, packs₁⟩, first, h⟩ := Option.bind_eq_some_iff.mp h
  dsimp only at h
  split at h
  next going =>
    obtain ⟨⟨ret', st₂, packs₂⟩, second, eq⟩ := Option.map_eq_some_iff.mp h
    obtain ⟨rfl, rfl, rfl⟩ : ret' = 0 ∧ st₂ = st' ∧ packs₁ ++ packs₂ = packs := by simpa using eq
    subst going
    exact ⟨st₁, packs₁, packs₂, first, second, rfl⟩
  next ended => exact absurd (Prod.mk.inj (Option.some.inj h)).1 ended

/-- The last byte of a chunk, seen with any byte beyond it. -/
theorem chunk_split {chunks : List (List UInt8)} {chunk : List UInt8} (mem : chunk ∈ chunks)
    (last : chunk.getLast? = some gbStartByte) : ∃ k l m, ∀ x, ∃ beyond : List UInt8,
      beyond.length = chunks.length ∧
      ((chunks.zip beyond).flatMap fun chunk => looks chunk.2 chunk.1) =
        l ++ (gbStartByte, startsAt gbStartByte x) :: m ∧
      (((chunks.zip beyond).take k).flatMap fun chunk => looks chunk.2 chunk.1) =
        l ++ [(gbStartByte, startsAt gbStartByte x)] ∧
      l.length + 1 + m.length = chunks.flatten.length := by
  obtain ⟨before, after, rfl⟩ := List.append_of_mem mem
  obtain ⟨front, rfl⟩ := List.getLast?_eq_some_iff.mp last
  have zeros : ∀ cs : List (List UInt8), ((cs.zip (List.replicate cs.length 0)).flatMap
      fun chunk => looks chunk.2 chunk.1).length = cs.flatten.length := by
    intro cs
    induction cs with
    | nil => rfl
    | cons c cs ih => simp [List.replicate_succ, looks_length, ih]
  refine ⟨before.length + 1, ((before.zip (List.replicate before.length 0)).flatMap
      fun chunk => looks chunk.2 chunk.1) ++ looks gbStartByte front,
    (after.zip (List.replicate after.length 0)).flatMap fun chunk => looks chunk.2 chunk.1,
    fun x => ⟨List.replicate before.length 0 ++ x :: List.replicate after.length 0, ?_, ?_, ?_, ?_⟩⟩
  · simp
  · rw [List.zip_append (by simp)]
    simp [looks_append, looks]
  · rw [List.zip_append (by simp), List.take_append, List.take_of_length_le (by simp)]
    simp [looks_append, looks]
  · rw [List.length_append, zeros, zeros, looks_length]
    simp
    omega

/-- A thread that has just connected. -/
def receiver : GbProt Unit where
  stat := { gbStatZero with rcvstep := .none }
  vars := gbVarsInit
  store := ⟨fun _ => [], fun _ => ⟨[], 0, 0, .free⟩, false⟩
  sock := ()

/-- A packet with this data unit. -/
def answer (data : List UInt8) : List UInt8 := gbPackUnit (gbPackHead gbVarsInit protLogin 0x01) data

end Gb32960
