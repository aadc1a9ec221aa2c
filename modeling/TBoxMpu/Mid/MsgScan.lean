import TBoxMpu.Lib.Framing
import TBoxMpu.Mid.Msg

/-!
# The SCOM decoders as scanners

Both decoders look for markers in a buffer, and keep in it what follows the last marker
that may open a frame. What they pass on is what a scan of the bytes delivers, wherever
they are cut into chunks (`receive_scan`), unless a frame without an end fills the buffer.
-/

namespace Msg

open Framing

/-- Scanning a stream of SCOM messages. -/
abbrev scanMsgs := scan dccpPkgMarker msgCheck

/-! ### The loop over a buffer -/

/-- The body open at `rPos`. -/
def openBody (msg : List UInt8) (rPos : Nat) (startPos : Option Nat) : Option (List UInt8) :=
  startPos.map fun start => (msg.drop (start + 1)).take (rPos - start - 1)

theorem msgFindDccp_none {rxbuf : List UInt8} (h : msgFindDccp rxbuf = none) :
    dccpPkgMarker ∉ rxbuf := by
  intro mem
  have all := List.findIdx?_eq_none_iff.mp h dccpPkgMarker mem
  simp at all

theorem msgFindDccp_some {rxbuf : List UInt8} {ret : Nat} (h : msgFindDccp rxbuf = some ret) :
    ∃ front rest, rxbuf = front ++ dccpPkgMarker :: rest ∧ front.length = ret ∧
      dccpPkgMarker ∉ front := by
  obtain ⟨inside, found, before⟩ := List.findIdx?_eq_some_iff_getElem.mp h
  -- the first place where the marker is
  have marker : rxbuf[ret] = dccpPkgMarker := by simpa using found
  refine ⟨rxbuf.take ret, rxbuf.drop (ret + 1), ?_, ?_, ?_⟩
  · rw [← marker, ← List.drop_eq_getElem_cons inside, List.take_append_drop]
  · exact List.length_take_of_le (Nat.le_of_lt inside)
  · intro mem
    obtain ⟨j, small, same⟩ := List.getElem_of_mem mem
    rw [List.length_take] at small
    have other := before j (by omega)
    rw [List.getElem_take] at same
    simp [same] at other

/-- Where a start position lies: at a marker, before the read position. -/
def Starts (msg : List UInt8) (rPos : Nat) (startPos : Option Nat) : Prop :=
  ∀ s, startPos = some s → s < rPos ∧ msg.drop s = dccpPkgMarker :: msg.drop (s + 1)

/-- The bytes between two read positions are added to the open body. -/
theorem openBody_append {msg front rest : List UInt8} {rPos : Nat} {startPos : Option Nat}
    (start : Starts msg rPos startPos) (split : msg.drop rPos = front ++ rest) :
    openBody msg (rPos + front.length) startPos =
      (openBody msg rPos startPos).map (· ++ front) := by
  cases startPos with
  | none => rfl
  | some s =>
    obtain ⟨before, -⟩ := start s rfl
    have behind : (msg.drop (s + 1)).drop (rPos - s - 1) = front ++ rest := by
      rw [List.drop_drop, ← split]
      congr 1
      omega
    have length : rPos + front.length - s - 1 = rPos - s - 1 + front.length := by omega
    simp only [openBody, Option.map_some]
    rw [length, List.take_add, behind, List.take_left]

/-- The loop delivers what a scan from the read position delivers, and leaves open what that
leaves open. -/
theorem msgDecodeLoop_scan {msg : List UInt8} {rounds rPos : Nat} {startPos : Option Nat}
    (enough : msg.length - rPos ≤ rounds) (inside : rPos ≤ msg.length)
    (start : Starts msg rPos startPos) {out : List (List UInt8)} {rPos' : Nat}
    {startPos' : Option Nat} (h : msgDecodeLoop msg rounds rPos startPos = (out, rPos', startPos')) :
    scanMsgs (openBody msg rPos startPos) (msg.drop rPos) = (out, openBody msg rPos' startPos') ∧
      rPos' = msg.length ∧ Starts msg rPos' startPos' := by
  induction rounds generalizing rPos startPos out with
  | zero =>
    have done : rPos = msg.length := by omega
    obtain ⟨rfl, rfl, rfl⟩ := h
    rw [done, List.drop_length]
    exact ⟨rfl, rfl, done ▸ start⟩
  | succ rounds ih =>
    unfold msgDecodeLoop at h
    split at h
    next more =>
      cases found : msgFindDccp (msg.drop rPos) with
      | none =>
        -- no marker is left
        rw [found] at h
        have whole := openBody_append start (List.append_nil (msg.drop rPos)).symm
        rw [List.length_drop, Nat.add_sub_cancel' inside] at whole
        have start' : Starts msg msg.length startPos := fun s same =>
          ⟨Nat.lt_of_lt_of_le (start s same).1 inside, (start s same).2⟩
        have rest := ih (by omega) (Nat.le_refl _) start' h
        rw [List.drop_length, whole] at rest
        rw [scanMsgs, scan_body _ (msgFindDccp_none found)]
        exact rest
      | some ret =>
        rw [found] at h
        obtain ⟨front, rest, split, rfl, clean⟩ := msgFindDccp_some found
        have within := congrArg List.length split
        rw [List.length_drop, List.length_append, List.length_cons] at within
        have behind : msg.drop (rPos + front.length + 1) = rest := by
          rw [Nat.add_assoc, ← List.drop_drop, split, ← List.drop_drop, List.drop_left]
          rfl
        have here : msg.drop (rPos + front.length) = dccpPkgMarker :: rest := by
          rw [← List.drop_drop, split, List.drop_left]
        -- the marker, if it opens a frame
        have opened : Starts msg (rPos + front.length + 1) (some (rPos + front.length)) := by
          intro s same
          obtain rfl := Option.some.inj same
          exact ⟨Nat.lt_succ_self _, by rw [here, behind]⟩
        have nothing : openBody msg (rPos + front.length + 1) (some (rPos + front.length)) =
            some [] := by
          have zero : rPos + front.length + 1 - (rPos + front.length) - 1 = 0 := by omega
          simp only [openBody, Option.map_some, zero, List.take_zero]
        have body := openBody_append start split
        have after := @ih (rPos + front.length + 1)
        rw [behind] at after
        rw [split, scanMsgs, scan_append, scan_body _ clean, ← body, List.nil_append]
        cases startPos with
        | none =>
          obtain ⟨scanned, length, starts⟩ := after (by omega) (by omega) opened h
          rw [nothing] at scanned
          refine ⟨?_, length, starts⟩
          exact (scan_opens rest).trans scanned
        | some s =>
          dsimp only at h
          have at_end : openBody msg (rPos + front.length) (some s) =
            some ((msg.drop (s + 1)).take (rPos + front.length - s - 1)) := rfl
          cases checked : msgCheck ((msg.drop (s + 1)).take (rPos + front.length - s - 1)) with
          | none =>
            rw [checked] at h
            obtain ⟨scanned, length, starts⟩ := after (by omega) (by omega) opened h
            rw [nothing] at scanned
            rw [at_end, scan_reopens checked]
            exact ⟨scanned, length, starts⟩
          | some payload =>
            rw [checked] at h
            obtain ⟨rfl, st⟩ := Prod.mk.inj h
            have closed : Starts msg (rPos + front.length + 1) none := nofun
            obtain ⟨scanned, length, starts⟩ :=
              after (by omega) (by omega) closed (Prod.ext rfl st)
            rw [at_end, scan_closes checked]
            have same : scan dccpPkgMarker msgCheck none rest = _ := scanned
            rw [same]
            exact ⟨rfl, length, starts⟩
    next done =>
      have done : rPos = msg.length := by omega
      obtain ⟨rfl, rfl, rfl⟩ := h
      rw [done, List.drop_length]
      exact ⟨rfl, rfl, done ▸ start⟩

/-- The two loops differ only in how they tell an empty body. -/
theorem msgDecodexLoop_eq {data : List UInt8} {rounds rPos : Nat} {startPos : Option Nat}
    (start : ∀ s, startPos = some s → s < rPos) :
    msgDecodexLoop data rounds rPos startPos = msgDecodeLoop data rounds rPos startPos := by
  induction rounds generalizing rPos startPos with
  | zero => rfl
  | succ rounds ih =>
    unfold msgDecodexLoop msgDecodeLoop
    split
    next more =>
      cases found : msgFindDccp (data.drop rPos) with
      | none => exact ih fun s same => Nat.lt_trans (start s same) more
      | some ret =>
        cases startPos with
        | none =>
          refine ih fun s same => ?_
          obtain rfl := Option.some.inj same
          exact Nat.lt_succ_self _
        | some s =>
          have before := start s rfl
          have len : (((rPos + ret : Nat) : Int) - s - dccpPkgCsSize).toNat = rPos + ret - s - 1 := by
            unfold dccpPkgCsSize
            omega
          -- a body without bytes: one loop drops it at once, the other leaves that to `msgCheck`
          have checked : (if ((rPos + ret : Nat) : Int) - s - dccpPkgCsSize ≤ 0 then none
              else msgCheck ((data.drop (s + dccpPkgMarkerSize)).take
                (((rPos + ret : Nat) : Int) - s - dccpPkgCsSize).toNat)) =
              msgCheck ((data.drop (s + 1)).take (rPos + ret - s - 1)) := by
            split
            next empty =>
              have zero : rPos + ret - s - 1 = 0 := by
                unfold dccpPkgCsSize at empty
                omega
              rw [zero, List.take_zero]
              rfl
            · rw [len]
              rfl
          dsimp only
          rw [checked]
          cases msgCheck ((data.drop (s + 1)).take (rPos + ret - s - 1)) with
          | none =>
            refine ih fun s same => ?_
            obtain rfl := Option.some.inj same
            exact Nat.lt_succ_self _
          | some payload =>
            have closed : ∀ s, (none : Option Nat) = some s → s < rPos + ret + 1 := nofun
            dsimp only
            rw [ih closed]
    · rfl

/-! ### What stays in a buffer -/

/-- The buffer while a frame is open, or none. -/
def held : Option (List UInt8) → List UInt8
  | none => []
  | some body => dccpPkgMarker :: body

def Clean (st : Option (List UInt8)) : Prop := ∀ body, st = some body → dccpPkgMarker ∉ body

theorem scan_held {st : Option (List UInt8)} (clean : Clean st) (chunk : List UInt8) :
    scanMsgs none (held st ++ chunk) = scanMsgs st chunk := by
  cases st with
  | none => rfl
  | some body =>
    have opened : scanMsgs (some []) (body ++ chunk) = scanMsgs (some body) chunk := by
      rw [scanMsgs, scan_append, scan_body _ (clean body rfl)]
      rfl
    exact (scan_opens _).trans opened

/-- What a scan leaves open is what follows the start position. -/
theorem openBody_end {msg : List UInt8} {s : Nat}
    (starts : Starts msg msg.length (some s)) :
    held (openBody msg msg.length (some s)) = msg.drop s := by
  obtain ⟨-, marker⟩ := starts s rfl
  rw [marker, openBody, Option.map_some, held, List.take_of_length_le]
  rw [List.length_drop]
  omega

/-- The read state between two chunks. -/
def ready (st : Option (List UInt8)) : MsgRead := ⟨held st, (held st).length, st.map fun _ => 0⟩

theorem msgDecode_scan (st : Option (List UInt8)) (chunk : List UInt8)
    (short : (held st ++ chunk).length < msgDecodeLimit) :
    msgDecode { ready st with msg := held st ++ chunk } =
      ((scanMsgs st chunk).1, ready (scanMsgs st chunk).2) := by
  have start : Starts (held st ++ chunk) (held st).length (st.map fun _ => 0) := by
    intro s same
    cases st with
    | none => cases same
    | some body =>
      obtain rfl := Option.some.inj same
      exact ⟨Nat.succ_pos _, rfl⟩
  have opened : openBody (held st ++ chunk) (held st).length (st.map fun _ => 0) = st := by
    cases st with
    | none => rfl
    | some body => simp [openBody, held]
  unfold msgDecode ready
  dsimp only
  have inside : (held st).length ≤ (held st ++ chunk).length := by simp
  cases run : msgDecodeLoop (held st ++ chunk) ((held st ++ chunk).length - (held st).length)
    (held st).length (st.map fun _ => 0) with
  | mk out rest =>
    obtain ⟨rPos, startPos⟩ := rest
    obtain ⟨scanned, rfl, starts⟩ := msgDecodeLoop_scan (Nat.le_refl _) inside start run
    rw [opened, List.drop_left] at scanned
    rw [scanned]
    cases startPos with
    | none => rfl
    | some s =>
      have before := (starts s rfl).1
      have rest := openBody_end starts
      dsimp only
      rw [if_neg (by omega), rest]
      rfl

theorem msgDecodex_scan {size : Nat} {st : Option (List UInt8)} {chunk : List UInt8}
    (clean : Clean st)
    (short : ∀ body, (scanMsgs st chunk).2 = some body → (held (some body)).length + 16 < size) :
    msgDecodex size (held st ++ chunk) = ((scanMsgs st chunk).1, held (scanMsgs st chunk).2) := by
  have start : Starts (held st ++ chunk) 0 none := nofun
  unfold msgDecodex
  rw [msgDecodexLoop_eq fun s same => (start s same).1]
  cases run : msgDecodeLoop (held st ++ chunk) (held st ++ chunk).length 0 none with
  | mk out rest =>
    obtain ⟨rPos, startPos⟩ := rest
    obtain ⟨scanned, rfl, starts⟩ := msgDecodeLoop_scan (Nat.le_refl _) (Nat.zero_le _) start run
    have whole : scanMsgs none (held st ++ chunk) = _ := scanned
    rw [scan_held clean] at whole
    rw [whole] at short ⊢
    cases startPos with
    | none => rfl
    | some s =>
      have before := (starts s rfl).1
      have rest := openBody_end starts
      have short : (held (openBody _ _ (some s))).length + 16 < size := short _ rfl
      rw [rest, List.length_drop] at short
      dsimp only
      rw [if_neg (by omega), rest]

/-! ### Receiving -/

/-- A receive loop that scans each chunk scans the whole stream. -/
theorem receiveAll_scan {S : Type} {receive : S → List UInt8 → Option (List (List UInt8) × S)}
    (state : Option (List UInt8) → S) {stream : List UInt8}
    (scans : ∀ pre chunk out s, pre ++ chunk <+: stream →
      receive (state (scanMsgs none pre).2) chunk = some (out, s) →
      out = (scanMsgs (scanMsgs none pre).2 chunk).1 ∧
        s = state (scanMsgs (scanMsgs none pre).2 chunk).2)
    {chunks : List (List UInt8)} (pre : List UInt8) (whole : pre ++ chunks.flatten = stream)
    {out : List (List UInt8)}
    (h : receiveAll receive (state (scanMsgs none pre).2) chunks = some out) :
    (scanMsgs none pre).1 ++ out = (scanMsgs none stream).1 := by
  induction chunks generalizing pre out with
  | nil =>
    obtain rfl := Option.some.inj h
    rw [← whole, List.flatten_nil, List.append_nil, List.append_nil]
  | cons chunk chunks ih =>
    unfold receiveAll at h
    obtain ⟨⟨first, s⟩, received, h⟩ := Option.bind_eq_some_iff.mp h
    obtain ⟨more, rest, h⟩ := Option.bind_eq_some_iff.mp h
    obtain rfl := Option.some.inj h
    rw [List.flatten_cons, ← List.append_assoc] at whole
    obtain ⟨rfl, rfl⟩ := scans pre chunk first s ⟨_, whole⟩ received
    have joined : scanMsgs none (pre ++ chunk) =
        ((scanMsgs none pre).1 ++ (scanMsgs (scanMsgs none pre).2 chunk).1,
          (scanMsgs (scanMsgs none pre).2 chunk).2) := scan_append none pre chunk
    have rest : receiveAll receive (state (scanMsgs none (pre ++ chunk)).2) chunks = some more := by
      rw [joined]
      exact rest
    rw [← ih _ whole rest, ← List.append_assoc]
    congr 1
    exact (congrArg Prod.fst joined).symm

end Msg
