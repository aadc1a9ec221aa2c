import Mathlib.Data.List.Basic

/-!
# Frames of the head unit

`hu_send_pack` and `hu_recv_pack`. A frame has a head of two bytes and a tail of two bytes, and
nothing between them is escaped. The scan ends a frame at the tail alone: the first byte of the
tail inside a frame ends it early or throws it away.
-/

namespace Hu

/-! ### Sending -/

/-- A packet to send: `cmd`, and the `len` bytes at `dat`. -/
structure HuPack where
  cmd : UInt8
  dat : List UInt8
  fits : dat.length ≤ 255

def huChecksum (data : List UInt8) : UInt8 := data.foldr (· ^^^ ·) 0

/-- `CHN_IP | SORC(DEV_MPU) | DEST(DEV_HU)` -/
def huDom : UInt8 := .ofNat (2 ||| 1 <<< 2 ||| 2 <<< 5)

/-- What the checksum is of: `cmd`, `len_m`, `len` and the data. -/
def HuPack.checked (p : HuPack) : List UInt8 := p.cmd :: 0 :: .ofNat p.dat.length :: p.dat

/-- The bytes between the head and the tail. -/
def HuPack.inner (p : HuPack) : List UInt8 := huDom :: p.checked ++ [huChecksum p.checked]

/-- `hu_send_pack` -/
def huSendPack (p : HuPack) : List UInt8 := 0x0d :: 0x05 :: p.inner ++ [0x0d, 0x0a]

/-! ### Receiving -/

def huMaxSendLen : Nat := 512

def huDict : List UInt8 := [0x0d, 0x05, 0x0d, 0x0a]

/-- `step`, and the first `opos` bytes of `obuf`. -/
structure HuScan where
  step : Nat
  obuf : List UInt8

def HuScan.start : HuScan := ⟨0, []⟩

/-- The inner loop on a byte. One that breaks off the head or the tail is looked at again. -/
def HuScan.byte (s : HuScan) (b : UInt8) : HuScan :=
  if huDict[s.step]? = some b then ⟨s.step + 1, s.obuf ++ [b]⟩
  -- before the head, bytes are skipped; behind it, they are kept
  else if s.step = 0 then s
  else if s.step = 2 then ⟨s.step, s.obuf ++ [b]⟩
  else if b = 0x0d then ⟨1, [b]⟩
  else .start

/-- The inner loop, over what is in `ibuf`, until a frame is complete. `obuf` is emptied where
it is full. -/
def huScan : HuScan → List UInt8 → HuScan × List UInt8
  | s, [] => (s, [])
  | s, b :: rest =>
    -- a complete frame leaves the rest in ibuf
    if s.step ≥ 4 then (s, b :: rest)
    else if s.obuf.length ≥ huMaxSendLen then huScan (HuScan.start.byte b) rest
    else huScan (s.byte b) rest

/-- The static variables; `ibuf` from `ipos` to `vpos`. -/
structure HuRecv where
  scan : HuScan
  ibuf : List UInt8

def HuRecv.initial : HuRecv := ⟨.start, []⟩

/-- `hu_recv_pack`: what it returns, the packet, and what is left of what `sock_recv` returns, call
after call. A call returns bytes, perhaps none, or fails; at the end of the list there is
nothing to receive. -/
def huRecvPack (retv : Int) (r : HuRecv) (sock : List (Option (List UInt8))) :
    (Int × Option (List UInt8)) × HuRecv × List (Option (List UInt8)) :=
  -- what the last call left is scanned before the socket is read
  let (s, ibuf) := huScan r.scan r.ibuf
  if s.step ≥ 4 then ((s.obuf.length, some s.obuf), ⟨.start, ibuf⟩, sock)
  else if s.obuf.length ≥ huMaxSendLen then ((retv, none), .initial, sock)
  else
    match sock with
    | [] => ((0, none), ⟨s, []⟩, [])
    | none :: sock => ((-1, none), .initial, sock)
    | some [] :: sock => ((0, none), ⟨s, []⟩, sock)
    | some chunk :: sock => huRecvPack chunk.length ⟨s, chunk⟩ sock

/-- The packets of so many calls. -/
def huReceived : Nat → HuRecv → List (Option (List UInt8)) → List (List UInt8)
  | 0, _, _ => []
  | n + 1, r, sock =>
    let ((_, pack), r, sock) := huRecvPack 0 r sock
    pack.toList ++ huReceived n r sock

/-! ### The frames of a stream -/

/-- The frames that the scan finds in a stream. -/
def huFrames : HuScan → List UInt8 → List (List UInt8)
  | s, [] => if s.step ≥ 4 then [s.obuf] else []
  | s, b :: rest =>
    if s.step ≥ 4 then s.obuf :: huFrames (HuScan.start.byte b) rest
    else if s.obuf.length ≥ huMaxSendLen then huFrames (HuScan.start.byte b) rest
    else huFrames (s.byte b) rest

theorem huFrames_start (b : UInt8) (rest : List UInt8) :
    huFrames .start (b :: rest) = huFrames (HuScan.start.byte b) rest := rfl

theorem huFrames_complete {s : HuScan} (complete : s.step ≥ 4) (stream : List UInt8) :
    huFrames s stream = s.obuf :: huFrames .start stream := by
  cases stream with
  | nil => exact if_pos complete
  | cons b rest => exact if_pos complete

theorem huFrames_full {s : HuScan} (open' : ¬ s.step ≥ 4) (full : s.obuf.length ≥ huMaxSendLen)
    (stream : List UInt8) : huFrames s stream = huFrames .start stream := by
  cases stream with
  | nil => exact if_neg open'
  | cons b rest => rw [huFrames, if_neg open', if_pos full, huFrames_start]

theorem huFrames_byte {s : HuScan} (open' : ¬ s.step ≥ 4) (room : s.obuf.length < huMaxSendLen)
    (b : UInt8) (rest : List UInt8) : huFrames s (b :: rest) = huFrames (s.byte b) rest := by
  rw [huFrames, if_neg open', if_neg (Nat.not_le.mpr room)]

/-- The frames do not depend on where the inner loop stops. -/
theorem huScan_frames (s : HuScan) (bytes more : List UInt8) :
    huFrames s (bytes ++ more) = huFrames (huScan s bytes).1 ((huScan s bytes).2 ++ more) := by
  induction bytes generalizing s with
  | nil => rfl
  | cons b rest ih =>
    unfold huScan
    split
    · rfl
    next open' =>
      rw [List.cons_append]
      split
      next full => rw [huFrames_full open' full, huFrames_start, ih]
      next room => rw [huFrames_byte open' (Nat.not_le.mp room), ih]

/-! ### Calls and chunks -/

/-- Bytes are left over only behind a complete frame. -/
theorem huScan_rest (s : HuScan) (bytes : List UInt8) (open' : ¬ (huScan s bytes).1.step ≥ 4) :
    (huScan s bytes).2 = [] := by
  induction bytes generalizing s with
  | nil => rfl
  | cons b rest ih =>
    unfold huScan at open' ⊢
    by_cases complete : s.step ≥ 4
    · rw [if_pos complete] at open'
      exact absurd complete open'
    · rw [if_neg complete] at open' ⊢
      by_cases full : s.obuf.length ≥ huMaxSendLen
      · rw [if_pos full] at open' ⊢
        exact ih _ open'
      · rw [if_neg full] at open' ⊢
        exact ih _ open'

/-- What a call makes of the bytes in `ibuf` and the chunks. -/
structure Called (r : HuRecv) (chunks : List (List UInt8)) (pack : Option (List UInt8))
    (r' : HuRecv) (rest : List (List UInt8)) : Prop where
  frames : huFrames r.scan (r.ibuf ++ chunks.flatten) =
    pack.toList ++ huFrames r'.scan (r'.ibuf ++ rest.flatten)
  room : r'.scan.obuf.length < huMaxSendLen
  fewer : rest.length ≤ chunks.length
  waits : pack = none → r'.ibuf = [] ∧ (rest.length < chunks.length ∨ r.ibuf ≠ [] ∨
    rest = [] ∧ huFrames r'.scan (r'.ibuf ++ rest.flatten) = [])

variable {r : HuRecv} {s : HuScan} {ibuf : List UInt8}

theorem called_complete (scanned : huScan r.scan r.ibuf = (s, ibuf)) (complete : s.step ≥ 4)
    (chunks : List (List UInt8)) : Called r chunks (some s.obuf) ⟨.start, ibuf⟩ chunks where
  frames := by
    rw [huScan_frames, scanned, huFrames_complete complete]
    rfl
  room := by
    simp only [HuScan.start, huMaxSendLen]
    decide
  fewer := Nat.le_refl _
  waits := nofun

theorem called_full (scanned : huScan r.scan r.ibuf = (s, ibuf)) (open' : ¬ s.step ≥ 4)
    (full : s.obuf.length ≥ huMaxSendLen) (room : r.scan.obuf.length < huMaxSendLen)
    (chunks : List (List UInt8)) : Called r chunks none .initial chunks where
  frames := by
    have left := huScan_rest r.scan r.ibuf
    rw [scanned] at left
    rw [huScan_frames, scanned, left open', huFrames_full open' full]
    rfl
  room := by decide
  fewer := Nat.le_refl _
  waits _ := by
    refine ⟨rfl, .inr (.inl fun empty => ?_)⟩
    rw [empty] at scanned
    cases scanned
    exact absurd full (Nat.not_le.mpr room)

theorem huRecvPack_complete (scanned : huScan r.scan r.ibuf = (s, ibuf)) (complete : s.step ≥ 4)
    (retv : Int) (sock : List (Option (List UInt8))) :
    huRecvPack retv r sock = (((s.obuf.length : Int), some s.obuf), ⟨.start, ibuf⟩, sock) := by
  cases sock with
  | nil | cons chunk sock =>
    rw [huRecvPack, scanned]
    exact if_pos complete

theorem huRecvPack_full (scanned : huScan r.scan r.ibuf = (s, ibuf)) (open' : ¬ s.step ≥ 4)
    (full : s.obuf.length ≥ huMaxSendLen) (retv : Int) (sock : List (Option (List UInt8))) :
    huRecvPack retv r sock = ((retv, none), .initial, sock) := by
  cases sock with
  | nil | cons chunk sock =>
    rw [huRecvPack, scanned]
    dsimp only
    rw [if_neg open', if_pos full]

/-- With all scanned and room in `obuf` the socket is read. -/
theorem huRecvPack_receives (scanned : huScan r.scan r.ibuf = (s, ibuf)) (open' : ¬ s.step ≥ 4)
    (space : ¬ s.obuf.length ≥ huMaxSendLen) (retv : Int) (sock : List (Option (List UInt8))) :
    huRecvPack retv r sock =
      match sock with
      | [] => ((0, none), ⟨s, []⟩, [])
      | none :: sock => ((-1, none), .initial, sock)
      | some [] :: sock => ((0, none), ⟨s, []⟩, sock)
      | some chunk :: sock => huRecvPack chunk.length ⟨s, chunk⟩ sock := by
  cases sock with
  | nil | cons chunk sock =>
    rw [huRecvPack, scanned]
    dsimp only
    rw [if_neg open', if_neg space]

theorem huRecvPack_called (retv : Int) (r : HuRecv) (chunks : List (List UInt8))
    (room : r.scan.obuf.length < huMaxSendLen) :
    ∃ res pack r' rest, huRecvPack retv r (chunks.map some) =
      ((res, pack), r', List.map some rest) ∧ Called r chunks pack r' rest := by
  have frames := huScan_frames r.scan r.ibuf chunks.flatten
  have left := huScan_rest r.scan r.ibuf
  cases scanned : huScan r.scan r.ibuf with
  | mk s ibuf =>
  rw [scanned] at frames left
  by_cases complete : s.step ≥ 4
  · exact ⟨_, _, _, chunks, huRecvPack_complete scanned complete retv _,
      called_complete scanned complete chunks⟩
  obtain rfl := left complete
  by_cases full : s.obuf.length ≥ huMaxSendLen
  · exact ⟨_, _, _, chunks, huRecvPack_full scanned complete full retv _,
      called_full scanned complete full room chunks⟩
  have space := Nat.not_le.mp full
  rw [huRecvPack_receives scanned complete full]
  cases chunks with
  | nil =>
    refine ⟨_, _, _, [], rfl, frames, space, Nat.le_refl _, fun _ => ?_⟩
    exact ⟨rfl, .inr (.inr ⟨rfl, if_neg complete⟩)⟩
  | cons chunk rest =>
    cases chunk with
    | nil =>
      refine ⟨_, _, _, rest, rfl, frames, space, Nat.le_succ _, fun _ => ?_⟩
      exact ⟨rfl, .inl (Nat.lt_succ_self _)⟩
    -- the chunk becomes ibuf, and the next turn is a call on it
    | cons b more =>
      obtain ⟨res, pack, r', rest', call, called⟩ :=
        huRecvPack_called (b :: more).length ⟨s, b :: more⟩ rest space
      refine ⟨res, pack, r', rest', call, frames.trans called.frames, called.room, ?_, ?_⟩
      · exact Nat.le_succ_of_le called.fewer
      · intro none
        exact ⟨(called.waits none).1, .inl (Nat.lt_succ_of_le called.fewer)⟩

/-- A call returns a frame, uses up a chunk or what was left in `ibuf`, or finds nothing more. -/
theorem Called.less {chunks rest : List (List UInt8)} {pack : Option (List UInt8)} {r' : HuRecv}
    (called : Called r chunks pack r' rest) :
    2 * (huFrames r'.scan (r'.ibuf ++ rest.flatten)).length + rest.length +
        (if r'.ibuf = [] then 0 else 1) <
      2 * (huFrames r.scan (r.ibuf ++ chunks.flatten)).length + chunks.length +
        (if r.ibuf = [] then 0 else 1) ∨
    r'.ibuf = [] ∧ rest = [] ∧ huFrames r'.scan (r'.ibuf ++ rest.flatten) = [] := by
  have frames := congrArg List.length called.frames
  rw [List.length_append] at frames
  have fewer := called.fewer
  have bit : (if r'.ibuf = [] then 0 else 1) ≤ 1 := by split <;> decide
  cases pack with
  | some f =>
    simp only [Option.toList_some, List.length_singleton] at frames
    exact .inl (by omega)
  | none =>
    obtain ⟨empty, moved⟩ := called.waits rfl
    simp only [Option.toList_none, List.length_nil, Nat.zero_add] at frames
    rw [if_pos empty]
    rcases moved with less | left | ⟨rfl, none⟩
    · exact .inl (by omega)
    · rw [if_neg left]
      exact .inl (by omega)
    · exact .inr ⟨empty, rfl, none⟩

/-- Enough calls return all frames of the stream, however it is cut into chunks. -/
theorem huReceived_frames (n : Nat) (r : HuRecv) (chunks : List (List UInt8))
    (room : r.scan.obuf.length < huMaxSendLen)
    (enough : 2 * (huFrames r.scan (r.ibuf ++ chunks.flatten)).length + chunks.length +
      (if r.ibuf = [] then 0 else 1) < n) :
    huReceived n r (chunks.map some) = huFrames r.scan (r.ibuf ++ chunks.flatten) := by
  induction n generalizing r chunks with
  | zero => exact absurd enough (Nat.not_lt_zero _)
  | succ n ih =>
    obtain ⟨res, pack, r', rest, call, called⟩ := huRecvPack_called 0 r chunks room
    rw [huReceived, call, called.frames]
    dsimp only
    refine congrArg (pack.toList ++ ·) ?_
    rcases called.less with less | ⟨empty, rfl, none⟩
    · exact ih r' rest called.room (by omega)
    · -- nothing is left to receive: no later call returns a frame
      cases n with
      | zero => exact none.symm
      | succ n =>
        refine ih r' [] called.room ?_
        rw [none, if_pos empty]
        exact Nat.succ_pos n

theorem received_initial {n : Nat} {chunks : List (List UInt8)}
    (enough : 2 * (huFrames .start chunks.flatten).length + chunks.length < n) :
    huReceived n .initial (chunks.map some) = huFrames .start chunks.flatten :=
  huReceived_frames n .initial chunks (by decide) enough

/-! ### A frame in a stream -/

variable {obuf bytes more : List UInt8}

theorem huFrames_next {k : Nat} (open' : k < 4) (room : obuf.length < huMaxSendLen) (b : UInt8) :
    huFrames ⟨k, obuf⟩ (b :: more) = huFrames (HuScan.byte ⟨k, obuf⟩ b) more :=
  huFrames_byte (s := ⟨k, obuf⟩) (Nat.not_le.mpr open') room b more

/-- Inside a frame, bytes that are not the first of the tail are kept. -/
theorem huFrames_body (clean : 0x0d ∉ bytes) (fits : obuf.length + bytes.length < huMaxSendLen) :
    huFrames ⟨2, obuf⟩ (bytes ++ more) = huFrames ⟨2, obuf ++ bytes⟩ more := by
  induction bytes generalizing obuf with
  | nil => rw [List.nil_append, List.append_nil]
  | cons b rest ih =>
    obtain ⟨other, clean⟩ := not_or.mp (List.mem_cons.not.mp clean)
    have kept : HuScan.byte ⟨2, obuf⟩ b = ⟨2, obuf ++ [b]⟩ := by
      have differs : ¬ huDict[2]? = some b := fun same => other (Option.some.inj same)
      unfold HuScan.byte
      rw [if_neg differs, if_neg (show ¬ (2 : Nat) = 0 by decide), if_pos rfl]
    rw [List.length_cons] at fits
    rw [List.cons_append, huFrames_next (by decide) (by omega), kept, ih clean (by simp; omega)]
    simp

theorem huFrames_head (stream : List UInt8) :
    huFrames .start (0x0d :: 0x05 :: stream) = huFrames ⟨2, [0x0d, 0x05]⟩ stream := rfl

theorem huFrames_tail (room : obuf.length + 1 < huMaxSendLen) (stream : List UInt8) :
    huFrames ⟨2, obuf⟩ (0x0d :: 0x0a :: stream) =
      (obuf ++ [0x0d, 0x0a]) :: huFrames .start stream := by
  have first : HuScan.byte ⟨2, obuf⟩ 0x0d = ⟨3, obuf ++ [0x0d]⟩ := rfl
  have second : HuScan.byte ⟨3, obuf ++ [0x0d]⟩ 0x0a = ⟨4, obuf ++ [0x0d] ++ [0x0a]⟩ := rfl
  rw [huFrames_next (by decide) (by omega), first, huFrames_next (by decide) (by simp; omega),
    second, huFrames_complete (s := ⟨4, obuf ++ [0x0d] ++ [0x0a]⟩) (Nat.le_refl 4)]
  simp

theorem inner_length (p : HuPack) : p.inner.length = p.dat.length + 5 := by
  simp [HuPack.inner, HuPack.checked]

/-- A frame without the first byte of the tail inside is found. -/
theorem huFrames_send {p : HuPack} (clean : 0x0d ∉ p.inner) (stream : List UInt8) :
    huFrames .start (huSendPack p ++ stream) = huSendPack p :: huFrames .start stream := by
  have fits := p.fits
  have length := inner_length p
  unfold huSendPack
  -- the head, the body up to the tail, the tail
  rw [List.append_assoc, List.cons_append, List.cons_append, huFrames_head,
    huFrames_body clean (by simp only [huMaxSendLen, List.length_cons, List.length_nil]; omega)]
  have room : ([0x0d, 0x05] ++ p.inner).length + 1 < huMaxSendLen := by
    simp only [huMaxSendLen, List.length_append, List.length_cons, List.length_nil]
    omega
  exact huFrames_tail room stream

theorem huFrames_clean {packs : List HuPack} (clean : ∀ p ∈ packs, 0x0d ∉ p.inner)
    (stream : List UInt8) :
    huFrames .start (packs.flatMap huSendPack ++ stream) =
      packs.map huSendPack ++ huFrames .start stream := by
  induction packs with
  | nil => rfl
  | cons p rest ih =>
    rw [List.flatMap_cons, List.append_assoc, huFrames_send (clean p (by simp)),
      ih fun q mem => clean q (by simp [mem])]
    rfl

/-! ### A frame that is broken -/

theorem byte_length (s : HuScan) (b : UInt8) : (s.byte b).obuf.length ≤ s.obuf.length + 1 := by
  unfold HuScan.byte
  split
  · simp
  · split
    · exact Nat.le_succ _
    · split
      · simp
      · split
        · exact Nat.le_add_left 1 _
        · exact Nat.zero_le _

/-- Frames are made of the bytes of the stream. -/
theorem huFrames_length (s : HuScan) (stream : List UInt8) :
    (huFrames s stream).flatten.length ≤ s.obuf.length + stream.length := by
  induction stream generalizing s with
  | nil =>
    unfold huFrames
    split <;> simp
  | cons b rest ih =>
    have fresh : (HuScan.start.byte b).obuf.length ≤ 1 := byte_length .start b
    have next := byte_length s b
    have first := ih (HuScan.start.byte b)
    have second := ih (s.byte b)
    unfold huFrames
    rw [List.length_cons]
    split
    · rw [List.flatten_cons, List.length_append]
      omega
    · split
      · omega
      · omega

/-- Behind the first byte of the tail, any byte but the second throws the frame away. -/
theorem byte_breaks {b : UInt8} (other : b ≠ 0x0a) : (HuScan.byte ⟨3, obuf⟩ b).obuf.length ≤ 1 := by
  have differs : ¬ huDict[3]? = some b := fun same => other (Option.some.inj same).symm
  unfold HuScan.byte
  rw [if_neg differs, if_neg (show ¬ (3 : Nat) = 0 by decide),
    if_neg (show ¬ (3 : Nat) = 2 by decide)]
  split
  · exact Nat.le_refl _
  · exact Nat.zero_le _

/-- A frame with the first byte of the tail inside is cut short or thrown away. -/
theorem huFrames_broken {p : HuPack} (broken : 0x0d ∈ p.inner) {stream : List UInt8}
    {others : List (List UInt8)} (whole : others.flatten.length = stream.length) :
    huFrames .start (huSendPack p ++ stream) ≠ huSendPack p :: others := by
  -- up to the first such byte the frame is scanned as it should be
  obtain ⟨a, c, split, clean⟩ := List.eq_append_cons_of_mem broken
  have fits := p.fits
  have length := inner_length p
  rw [split] at length
  simp only [List.length_append, List.length_cons] at length
  obtain ⟨d, rest, next⟩ : ∃ d rest, c ++ [0x0d, 0x0a] ++ stream = d :: rest := by
    cases c <;> exact ⟨_, _, rfl⟩
  have total := congrArg List.length next
  simp only [List.length_append, List.length_cons, List.length_nil] at total
  have sent : huSendPack p ++ stream = 0x0d :: 0x05 :: (a ++ 0x0d :: d :: rest) := by
    rw [← next]
    simp [huSendPack, split]
  have size : (huSendPack p).length = a.length + c.length + 5 := by
    simp [huSendPack, split]
    omega
  have room : ([0x0d, 0x05] ++ a).length + 1 < huMaxSendLen := by
    simp only [huMaxSendLen, List.length_append, List.length_cons, List.length_nil]
    omega
  rw [sent, huFrames_head, huFrames_body clean (by simp at room ⊢; omega)]
  intro same
  -- the next byte ends the frame early, or breaks the tail off
  by_cases ends : d = 0x0a
  · rw [ends, huFrames_tail room] at same
    have first := congrArg List.length (List.cons.inj same).1
    simp only [List.length_append, List.length_cons, List.length_nil] at first
    omega
  · have first : HuScan.byte ⟨2, [0x0d, 0x05] ++ a⟩ 0x0d = ⟨3, [0x0d, 0x05] ++ a ++ [0x0d]⟩ := rfl
    rw [huFrames_next (by decide) (Nat.lt_of_succ_lt room), first,
      huFrames_next (by decide) (by simpa using room)] at same
    -- the frame is gone, and the bytes left are too few for it
    have bound := huFrames_length (HuScan.byte ⟨3, [0x0d, 0x05] ++ a ++ [0x0d]⟩ d) rest
    have small : (HuScan.byte ⟨3, [0x0d, 0x05] ++ a ++ [0x0d]⟩ d).obuf.length ≤ 1 :=
      byte_breaks ends
    rw [same, List.flatten_cons, List.length_append] at bound
    omega

theorem huFrames_whole {packs : List HuPack}
    (whole : huFrames .start (packs.flatMap huSendPack) = packs.map huSendPack) :
    ∀ p ∈ packs, 0x0d ∉ p.inner := by
  induction packs with
  | nil => nofun
  | cons p rest ih =>
    rw [List.flatMap_cons, List.map_cons] at whole
    by_cases broken : 0x0d ∈ p.inner
    · exact absurd whole (huFrames_broken broken (by rw [List.flatMap_def]))
    · rw [huFrames_send broken] at whole
      rintro q (_ | ⟨_, mem⟩)
      · exact broken
      · exact ih (List.cons.inj whole).2 q mem

/-- The packets sent are received, however the stream is cut, exactly if the first byte of the
tail is in none of them between the head and the tail. -/
theorem packets_received_iff (packs : List HuPack) :
    (∀ chunks : List (List UInt8), (∀ c ∈ chunks, c.length ≤ huMaxSendLen) →
      chunks.flatten = packs.flatMap huSendPack → ∀ n, 2 * packs.length + chunks.length < n →
        huReceived n .initial (chunks.map some) = packs.map huSendPack) ↔
    ∀ p ∈ packs, 0x0d ∉ p.inner := by
  constructor
  · intro received
    -- byte by byte is one of the ways to cut the stream
    let chunks := (packs.flatMap huSendPack).map ([·])
    have stream : chunks.flatten = packs.flatMap huSendPack := by
      rw [← List.flatMap_def, List.flatMap_singleton']
    have small : ∀ c ∈ chunks, c.length ≤ huMaxSendLen := by
      intro c mem
      obtain ⟨b, -, rfl⟩ := List.mem_map.mp mem
      simp [huMaxSendLen]
    let n := 2 * (huFrames .start chunks.flatten).length + 2 * packs.length + chunks.length + 1
    have all := received chunks small stream n (by omega)
    rw [received_initial (by omega), stream] at all
    exact huFrames_whole all
  · intro clean chunks _ stream n enough
    have frames : huFrames .start (packs.flatMap huSendPack) = packs.map huSendPack := by
      have more := huFrames_clean clean []
      rwa [List.append_nil, show huFrames .start [] = [] from rfl, List.append_nil] at more
    rw [received_initial (by rwa [stream, frames, List.length_map]), stream, frames]

/-- A packet whose data has the first byte of the tail is lost, one whose data has the tail is cut
short. -/
theorem packets_not_received :
    huReceived 10 .initial [some (huSendPack ⟨0x42, [0x0d], by decide⟩)] = [] ∧
      huReceived 10 .initial [some (huSendPack ⟨0x42, [0x0d, 0x0a], by decide⟩)] =
        [[0x0d, 0x05, 0x46, 0x42, 0x00, 0x02, 0x0d, 0x0a]] := by
  decide

end Hu
