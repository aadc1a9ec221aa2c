import TBoxMpu.Lib.Checked
import TBoxMpu.Hu.Exchange

/-!
# What is received from the head unit

`hu_recv_pack` with `hu_check_recv` behind it. A chunk that ends where an unfinished frame has
filled `obuf` is reported as a frame though there is none; a frame is read as far as its length
byte says, wherever it ends.

## Main result

`receive_inside_iff`: every call is well behaved exactly if no chunk ends so and each frame of the
stream is as long as it says.

## Proof strategy

1. `huFills` follows the stream as `huFrames` does, and says whether `obuf` is full at its end
2. A call returns a positive value without a frame exactly if the chunks it has read fill `obuf`
3. The calls together pass every frame and every end of a chunk
-/

namespace Hu

open Checked

variable {r : HuRecv} {s : HuScan} {ibuf bytes more frame : List UInt8}

/-! ### What is read of a frame -/

inductive HuFault
  | nullFrame | outside

def frameByte (frame : List UInt8) (i : Nat) : Except HuFault UInt8 :=
  fetch .outside (fun k => frame.getD k 0) frame.length i

/-- From `cshead` on, the bytes that the checksum is of. -/
def frameChecked (frame : List UInt8) (len : UInt8) : Except HuFault (List UInt8) :=
  fetchAll .outside (fun k => frame.getD k 0) frame.length 3 (len.toNat + 3)

/-- What `hu_check_recv` reads of the frame. -/
def huCheckReads (frame : List UInt8) : Except HuFault Unit := do
  let cmd ← frameByte frame 3
  if cmd = 0x2a then do
    -- sent back with a checksum of its own
    let len ← frameByte frame 5
    let _ ← frameChecked frame len
    .ok ()
  -- an empty entry of the table has the command zero
  else if cmd ≠ 0 ∧ huFindCommand cmd = none then .ok ()
  else do
    let len ← frameByte frame 5
    let sum ← frameByte frame (6 + len.toNat)
    let checked ← frameChecked frame len
    -- `recv_proc` reads `dat[0]`
    if sum = huChecksum checked then do
      let _ ← frameByte frame 6
      .ok ()
    else .ok ()

/-- `hu_check_recv` on what `hu_recv_pack` returns. -/
def huCheckRecvIn (env : HuEnv) (call : Int × Option (List UInt8)) (s : HuMain) :
    Except HuFault (Int × HuMain) :=
  if call.1 ≤ 0 then .ok (huCheckRecv env call.1 [] s)
  else
    match call.2 with
    | none => .error .nullFrame
    | some frame => do
      let _ ← huCheckReads frame
      .ok (huCheckRecv env call.1 frame s)

/-- The data lies inside the frame, and for a command of the table the checksum does. -/
def AsLongAsSaid (frame : List UInt8) : Prop :=
  let cmd := frame.getD 3 0
  let len := (frame.getD 5 0).toNat
  (cmd = 0x2a → 6 + len ≤ frame.length) ∧
    (cmd = 0 ∨ (huFindCommand cmd).isSome → 7 + len ≤ frame.length)

/-- A call that returns a frame where it says so, of which nothing outside is read. -/
def CallInside (call : Int × Option (List UInt8)) : Prop :=
  (0 < call.1 → call.2.isSome) ∧ ∀ env s, Safe (huCheckRecvIn env call s)

theorem safe_frameByte_bind {β : Type} {i : Nat} {f : UInt8 → Except HuFault β} :
    Safe (frameByte frame i >>= f) ↔ i < frame.length ∧ Safe (f (frame.getD i 0)) :=
  safe_fetch_bind

theorem safe_frameChecked_bind {β : Type} {len : UInt8} {f : List UInt8 → Except HuFault β} :
    Safe (frameChecked frame len >>= f) ↔ 3 + (len.toNat + 3) ≤ frame.length ∧
      Safe (f (stretch (fun k => frame.getD k 0) 3 (len.toNat + 3))) :=
  safe_fetchAll_bind

theorem huCheckReads_safe_iff (four : 4 ≤ frame.length) :
    Safe (huCheckReads frame) ↔ AsLongAsSaid frame := by
  simp only [huCheckReads, AsLongAsSaid, safe_frameByte_bind, safe_frameChecked_bind, safe_ite,
    safe_ok, and_true]
  generalize frame.getD 3 0 = cmd
  generalize (frame.getD 5 0).toNat = len
  by_cases beat : cmd = 0x2a
  · have other : ¬ (cmd = 0 ∨ (huFindCommand cmd).isSome) := by
      rw [beat]
      decide
    simp only [beat, true_implies, not_true_eq_false, false_implies, and_true] at other ⊢
    simp only [other, false_implies, and_true]
    omega
  · have unknown : (cmd ≠ 0 ∧ huFindCommand cmd = none) ↔
        ¬ (cmd = 0 ∨ (huFindCommand cmd).isSome) := by
      rw [not_or, Option.not_isSome_iff_eq_none]
    simp only [beat, unknown, false_implies, true_and, not_false_eq_true, true_implies, not_not]
    constructor
    · rintro ⟨-, -, reads⟩ known
      have inside := (reads known).2.1
      omega
    · intro long
      refine ⟨four, fun _ => trivial, fun known => ?_⟩
      have inside := long known
      refine ⟨by omega, by omega, by omega, fun _ => by omega, fun _ => trivial⟩

theorem callInside_none {res : Int} : CallInside (res, none) ↔ ¬ 0 < res := by
  constructor
  · exact fun inside positive => nomatch inside.1 positive
  · intro zero
    refine ⟨fun positive => absurd positive zero, fun env s => ?_⟩
    rw [huCheckRecvIn, if_pos (Int.not_lt.mp zero)]
    exact safe_ok _

theorem callInside_some (four : 4 ≤ frame.length) :
    CallInside (frame.length, some frame) ↔ AsLongAsSaid frame := by
  have positive : ¬ (frame.length : Int) ≤ 0 := by omega
  have reads : ∀ env s, Safe (huCheckRecvIn env (frame.length, some frame) s) ↔
      Safe (huCheckReads frame) := by
    intro env s
    rw [huCheckRecvIn, if_neg positive]
    exact safe_bind_of fun _ => safe_ok _
  rw [← huCheckReads_safe_iff four]
  constructor
  · intro inside
    let env : HuEnv := ⟨0, .noreq, 0, 0, 0, 0, 0⟩
    exact (reads env .initial).mp (inside.2 env .initial)
  · exact fun safe => ⟨fun _ => rfl, fun env s => (reads env s).mpr safe⟩

/-! ### Frames have a head and a tail -/

theorem byte_step_le (b : UInt8) (within : s.step ≤ s.obuf.length) :
    (s.byte b).step ≤ (s.byte b).obuf.length := by
  unfold HuScan.byte
  split
  · simpa using within
  · split
    · exact within
    · split
      · simp only [List.length_append, List.length_singleton]
        exact Nat.le_succ_of_le within
      · split
        · exact Nat.le_refl 1
        · exact Nat.le_refl 0

theorem four_le_frame (within : s.step ≤ s.obuf.length) (stream : List UInt8) :
    ∀ f ∈ huFrames s stream, 4 ≤ f.length := by
  induction stream generalizing s with
  | nil =>
    intro f mem
    unfold huFrames at mem
    split at mem
    next complete =>
      cases List.mem_singleton.mp mem
      exact Nat.le_trans complete within
    next => cases mem
  | cons b rest ih =>
    intro f mem
    have fresh := ih (byte_step_le b (Nat.le_refl HuScan.start.step))
    unfold huFrames at mem
    split at mem
    next complete =>
      cases mem with
      | head => exact Nat.le_trans complete within
      | tail _ mem => exact fresh f mem
    next =>
      split at mem
      · exact fresh f mem
      · exact ih (byte_step_le b within) f mem

/-! ### Where obuf is full -/

/-- No frame is complete, and there is no room for another byte. -/
def HuScan.Full (s : HuScan) : Prop := ¬ s.step ≥ 4 ∧ s.obuf.length ≥ huMaxSendLen

/-- The last byte of the stream is the one that fills `obuf`. -/
def huFills : HuScan → List UInt8 → Prop
  | s, [] => s.Full
  | s, b :: rest =>
    if s.step ≥ 4 then huFills (HuScan.start.byte b) rest
    else if s.obuf.length ≥ huMaxSendLen then huFills (HuScan.start.byte b) rest
    else huFills (s.byte b) rest

theorem huFills_start (b : UInt8) (rest : List UInt8) :
    huFills .start (b :: rest) ↔ huFills (HuScan.start.byte b) rest := Iff.rfl

theorem start_not_full : ¬ HuScan.start.Full := fun full => absurd full.2 (by decide)

theorem huFills_complete (complete : s.step ≥ 4) (stream : List UInt8) :
    huFills s stream ↔ huFills .start stream := by
  cases stream with
  | nil => exact iff_of_false (fun full => full.1 complete) start_not_full
  | cons b rest => rw [huFills, if_pos complete, huFills_start]

theorem huFills_full (full : s.Full) {stream : List UInt8} (going : stream ≠ []) :
    huFills s stream ↔ huFills .start stream := by
  cases stream with
  | nil => exact absurd rfl going
  | cons b rest => rw [huFills, if_neg full.1, if_pos full.2, huFills_start]

theorem huFills_byte (open' : ¬ s.step ≥ 4) (room : s.obuf.length < huMaxSendLen) (b : UInt8)
    (rest : List UInt8) : huFills s (b :: rest) ↔ huFills (s.byte b) rest := by
  rw [huFills, if_neg open', if_neg (Nat.not_le.mpr room)]

/-- Nor does it depend on where the inner loop stops. -/
theorem huScan_fills (s : HuScan) (bytes more : List UInt8) :
    huFills s (bytes ++ more) ↔ huFills (huScan s bytes).1 ((huScan s bytes).2 ++ more) := by
  induction bytes generalizing s with
  | nil => rfl
  | cons b rest ih =>
    unfold huScan
    split
    · rfl
    next open' =>
      split
      next full =>
        rw [List.cons_append, huFills_full ⟨open', full⟩ (List.cons_ne_nil _ _), huFills_start, ih]
      next room => rw [List.cons_append, huFills_byte open' (Nat.not_le.mp room), ih]

/-- Too few bytes do not fill `obuf`. -/
theorem huFills_length (s : HuScan) (stream : List UInt8) (fills : huFills s stream) :
    huMaxSendLen ≤ s.obuf.length + stream.length := by
  induction stream generalizing s with
  | nil => exact fills.2
  | cons b rest ih =>
    have fresh : (HuScan.start.byte b).obuf.length ≤ 1 := byte_length .start b
    have next := byte_length s b
    rw [List.length_cons]
    unfold huFills at fills
    split at fills
    · have := ih _ fills
      omega
    · split at fills
      · have := ih _ fills
        omega
      · have := ih _ fills
        omega

/-- A frame that is completed uses up a byte. -/
theorem huScan_shorter (s : HuScan) (bytes : List UInt8) :
    (huScan s bytes).2.length ≤ bytes.length ∧
      (¬ s.step ≥ 4 → (huScan s bytes).1.step ≥ 4 → (huScan s bytes).2.length < bytes.length) := by
  induction bytes generalizing s with
  | nil => exact ⟨Nat.le_refl _, fun open' complete => absurd complete open'⟩
  | cons b rest ih =>
    unfold huScan
    split
    next complete => exact ⟨Nat.le_refl _, fun open' => absurd complete open'⟩
    next =>
      split
      · exact ⟨Nat.le_succ_of_le (ih _).1, fun _ _ => Nat.lt_succ_of_le (ih _).1⟩
      · exact ⟨Nat.le_succ_of_le (ih _).1, fun _ _ => Nat.lt_succ_of_le (ih _).1⟩

/-! ### One call -/

/-- The static variables between two calls. -/
structure Ready (r : HuRecv) : Prop where
  open' : ¬ r.scan.step ≥ 4
  room : r.scan.obuf.length < huMaxSendLen
  fits : r.ibuf.length ≤ huMaxSendLen
  unfilled : ¬ huFills r.scan r.ibuf

theorem ready_initial : Ready .initial := ⟨by decide, by decide, by decide, start_not_full⟩

/-- What a call makes of the chunks that it reads. -/
structure CallReads (r : HuRecv) (used : List (List UInt8)) (call : Int × Option (List UInt8))
    (r' : HuRecv) : Prop where
  length : ∀ f, call.2 = some f → call.1 = f.length
  fills : huFills r.scan (r.ibuf ++ used.flatten) ↔ call.2 = none ∧ 0 < call.1
  before : ∀ pre, pre <+: used → pre ≠ used → ¬ huFills r.scan (r.ibuf ++ pre.flatten)
  behind : ∀ more, more ≠ [] →
    (huFills r.scan (r.ibuf ++ used.flatten ++ more) ↔ huFills r'.scan (r'.ibuf ++ more))
  ready : Ready r'

theorem not_before_nil {α : Type} {P : List α → Prop} :
    ∀ pre, pre <+: [] → pre ≠ [] → P pre :=
  fun _ prefix' proper => absurd (List.prefix_nil.mp prefix') proper

theorem fills_scanned (scanned : huScan r.scan r.ibuf = (s, ibuf)) (more : List UInt8) :
    huFills r.scan (r.ibuf ++ more) ↔ huFills s (ibuf ++ more) := by
  rw [huScan_fills, scanned]

theorem reads_complete (scanned : huScan r.scan r.ibuf = (s, ibuf)) (complete : s.step ≥ 4)
    (open' : ¬ r.scan.step ≥ 4) (fits : r.ibuf.length ≤ huMaxSendLen) :
    CallReads r [] (s.obuf.length, some s.obuf) ⟨.start, ibuf⟩ := by
  have shorter := (huScan_shorter r.scan r.ibuf).2 open'
  rw [scanned] at shorter
  have less : ibuf.length < huMaxSendLen := Nat.lt_of_lt_of_le (shorter complete) fits
  have unfilled : ¬ huFills .start ibuf := fun fills =>
    absurd (huFills_length _ _ fills) (by simpa [HuScan.start] using less)
  have same : ∀ more, huFills r.scan (r.ibuf ++ more) ↔ huFills .start (ibuf ++ more) :=
    fun more => (fills_scanned scanned more).trans (huFills_complete complete _)
  refine ⟨?_, ?_, not_before_nil, ?_, ready_initial.open', ready_initial.room,
    Nat.le_of_lt less, unfilled⟩
  · rintro f ⟨⟩
    rfl
  · rw [List.flatten_nil, same, List.append_nil]
    exact iff_of_false unfilled (by rintro ⟨⟨⟩, -⟩)
  · intro more _
    rw [List.flatten_nil, List.append_nil]
    exact same more

theorem reads_full {retv : Int} (scanned : huScan r.scan r.ibuf = (s, [])) (full : s.Full)
    (counted : huFills r.scan r.ibuf → 0 < retv) : CallReads r [] (retv, none) .initial := by
  have fills : huFills r.scan r.ibuf := by
    have scan := fills_scanned scanned []
    rw [List.append_nil] at scan
    exact scan.mpr full
  refine ⟨nofun, ?_, not_before_nil, ?_, ready_initial⟩
  · rw [List.flatten_nil, List.append_nil]
    exact iff_of_true fills ⟨rfl, counted fills⟩
  · intro more going
    rw [List.flatten_nil, List.append_nil, fills_scanned scanned]
    exact huFills_full full going

/-- Nothing is left to scan, and nothing was received. -/
theorem reads_nothing {used : List (List UInt8)} (scanned : huScan r.scan r.ibuf = (s, []))
    (open' : ¬ s.step ≥ 4) (room : s.obuf.length < huMaxSendLen) (nothing : used.flatten = []) :
    CallReads r used (0, none) ⟨s, []⟩ := by
  have notFull : ¬ s.Full := fun full => absurd full.2 (Nat.not_le.mpr room)
  have unfilled : ¬ huFills r.scan (r.ibuf ++ []) := by
    rw [fills_scanned scanned]
    exact notFull
  refine ⟨nofun, ?_, ?_, ?_, open', room, Nat.zero_le _, notFull⟩
  · rw [nothing]
    exact iff_of_false unfilled fun positive => absurd positive.2 (Int.lt_irrefl 0)
  · rintro pre ⟨rest, rfl⟩ -
    rw [List.flatten_append] at nothing
    rw [(List.append_eq_nil_iff.mp nothing).1]
    exact unfilled
  · intro more _
    rw [nothing, List.append_nil]
    exact fills_scanned scanned more

/-- A chunk becomes `ibuf`, and the next turn is a call on it. -/
theorem reads_chunk {chunk : List UInt8} {used : List (List UInt8)}
    {call : Int × Option (List UInt8)} {r' : HuRecv} (scanned : huScan r.scan r.ibuf = (s, []))
    (room : s.obuf.length < huMaxSendLen) (reads : CallReads ⟨s, chunk⟩ used call r') :
    CallReads r (chunk :: used) call r' := by
  refine ⟨reads.length, ?_, ?_, ?_, reads.ready⟩
  · rw [fills_scanned scanned, List.flatten_cons]
    exact reads.fills
  · rintro (_ | ⟨c, pre⟩) prefix' proper
    · rw [fills_scanned scanned]
      exact fun full => absurd full.2 (Nat.not_le.mpr room)
    · obtain ⟨rfl, shorter⟩ := List.cons_prefix_cons.mp prefix'
      rw [fills_scanned scanned, List.flatten_cons]
      exact reads.before pre shorter fun same => proper (same ▸ rfl)
  · intro more going
    rw [List.append_assoc, fills_scanned scanned, List.flatten_cons, ← List.append_assoc]
    exact reads.behind more going

theorem huRecvPack_reads (retv : Int) (r : HuRecv) (chunks : List (List UInt8))
    (open' : ¬ r.scan.step ≥ 4) (room : r.scan.obuf.length < huMaxSendLen)
    (fits : r.ibuf.length ≤ huMaxSendLen) (counted : huFills r.scan r.ibuf → 0 < retv)
    (cut : ∀ c ∈ chunks, c.length ≤ huMaxSendLen) :
    ∃ call r' used rest, chunks = used ++ rest ∧
      huRecvPack retv r (chunks.map some) = (call, r', rest.map some) ∧
        CallReads r used call r' := by
  have left := huScan_rest r.scan r.ibuf
  cases scanned : huScan r.scan r.ibuf with
  | mk s ibuf =>
  rw [scanned] at left
  by_cases complete : s.step ≥ 4
  · exact ⟨_, _, [], chunks, rfl, huRecvPack_complete scanned complete retv _,
      reads_complete scanned complete open' fits⟩
  obtain rfl := left complete
  by_cases full : s.obuf.length ≥ huMaxSendLen
  · exact ⟨_, _, [], chunks, rfl, huRecvPack_full scanned complete full retv _,
      reads_full scanned ⟨complete, full⟩ counted⟩
  have space := Nat.not_le.mp full
  rw [huRecvPack_receives scanned complete full]
  cases chunks with
  | nil => exact ⟨_, _, [], [], rfl, rfl, reads_nothing scanned complete space rfl⟩
  | cons chunk rest =>
    cases chunk with
    | nil => exact ⟨_, _, [[]], rest, rfl, rfl, reads_nothing scanned complete space rfl⟩
    | cons b more =>
      have cut := List.forall_mem_cons.mp cut
      obtain ⟨call, r', used, rest', split, eq, reads⟩ :=
        huRecvPack_reads (b :: more).length ⟨s, b :: more⟩ rest complete space cut.1
          (fun _ => by simp) cut.2
      exact ⟨call, r', (b :: more) :: used, rest', by rw [split]; rfl, eq,
        reads_chunk scanned space reads⟩

/-! ### All calls -/

/-- What so many calls return. -/
def huCalls : Nat → HuRecv → List (Option (List UInt8)) → List (Int × Option (List UInt8))
  | 0, _, _ => []
  | n + 1, r, sock =>
    let (call, r, sock) := huRecvPack 0 r sock
    call :: huCalls n r sock

theorem huReceived_calls (n : Nat) (r : HuRecv) (sock : List (Option (List UInt8))) :
    huReceived n r sock = (huCalls n r sock).flatMap fun call => call.2.toList := by
  induction n generalizing r sock with
  | zero => rfl
  | succ n ih =>
    rw [huCalls, List.flatMap_cons, ← ih]
    rfl

variable {chunks : List (List UInt8)}

/-- A call with the chunks that it reads and the frame that it takes from the stream. -/
theorem call_reads (ready : Ready r) (cut : ∀ c ∈ chunks, c.length ≤ huMaxSendLen) :
    ∃ call r' used rest, chunks = used ++ rest ∧
      (∀ n, huCalls (n + 1) r (chunks.map some) = call :: huCalls n r' (rest.map some)) ∧
        CallReads r used call r' ∧ Called r chunks call.2 r' rest := by
  obtain ⟨call, r', used, rest, split, eq, reads⟩ := huRecvPack_reads 0 r chunks ready.open'
    ready.room ready.fits (fun fills => absurd fills ready.unfilled) cut
  obtain ⟨res, pack, r'', rest', eq', called⟩ := huRecvPack_called 0 r chunks ready.room
  rw [eq] at eq'
  obtain ⟨rfl, rfl, same⟩ := Prod.mk.inj eq' |>.imp_right Prod.mk.inj
  obtain rfl := List.map_injective_iff.mpr (fun _ _ => Option.some.inj) same
  refine ⟨_, r', used, rest, split, fun n => ?_, reads, called⟩
  rw [huCalls, eq]

/-- Behind a call the stream fills `obuf` where it does behind the chunks read. -/
theorem CallReads.fills_behind {used : List (List UInt8)} {call : Int × Option (List UInt8)}
    {r' : HuRecv} (reads : CallReads r used call r') {pre : List (List UInt8)}
    (fills : huFills r'.scan (r'.ibuf ++ pre.flatten)) :
    huFills r.scan (r.ibuf ++ (used ++ pre).flatten) := by
  have going : pre.flatten ≠ [] := by
    intro nothing
    rw [nothing, List.append_nil] at fills
    exact reads.ready.unfilled fills
  rw [List.flatten_append, ← List.append_assoc]
  exact (reads.behind _ going).mpr fills

theorem calls_length (n : Nat) (ready : Ready r) (cut : ∀ c ∈ chunks, c.length ≤ huMaxSendLen) :
    ∀ call ∈ huCalls n r (chunks.map some), ∀ f, call.2 = some f → call.1 = f.length := by
  induction n generalizing r chunks with
  | zero => nofun
  | succ n ih =>
    obtain ⟨call, r', used, rest, rfl, calls, reads, -⟩ := call_reads ready cut
    rw [calls]
    rintro c (_ | ⟨_, mem⟩)
    · exact reads.length
    · exact ih reads.ready (fun c mem => cut c (List.mem_append_right used mem)) c mem

theorem calls_inside (n : Nat) (ready : Ready r) (cut : ∀ c ∈ chunks, c.length ≤ huMaxSendLen)
    (unfilled : ∀ pre, pre <+: chunks → ¬ huFills r.scan (r.ibuf ++ pre.flatten))
    (long : ∀ f ∈ huFrames r.scan (r.ibuf ++ chunks.flatten), 4 ≤ f.length ∧ AsLongAsSaid f) :
    ∀ call ∈ huCalls n r (chunks.map some), CallInside call := by
  induction n generalizing r chunks with
  | zero => nofun
  | succ n ih =>
    obtain ⟨⟨res, pack⟩, r', used, rest, rfl, calls, reads, called⟩ := call_reads ready cut
    rw [called.frames] at long
    rw [calls]
    rintro c (_ | ⟨_, mem⟩)
    · cases pack with
      | none =>
        have notFilled := unfilled used (List.prefix_append used rest)
        rw [reads.fills] at notFilled
        exact callInside_none.mpr fun positive => notFilled ⟨rfl, positive⟩
      | some f =>
        obtain ⟨four, said⟩ := long f (List.mem_append_left _ (List.mem_singleton_self f))
        rw [show res = f.length from reads.length f rfl]
        exact (callInside_some four).mpr said
    · refine ih reads.ready (fun c mem => cut c (List.mem_append_right used mem)) ?_
        (fun f mem => long f (List.mem_append_right _ mem)) c mem
      rintro pre ⟨behind, rfl⟩ fills
      exact unfilled (used ++ pre) ⟨behind, List.append_assoc ..⟩ (reads.fills_behind fills)

/-- Where a chunk fills `obuf`, some call returns a positive value without a frame. -/
theorem calls_filled (k : Nat) (ready : Ready r) (cut : ∀ c ∈ chunks, c.length ≤ huMaxSendLen)
    (measure : 2 * (huFrames r.scan (r.ibuf ++ chunks.flatten)).length + chunks.length +
      (if r.ibuf = [] then 0 else 1) < k)
    {pre : List (List UInt8)} (prefix' : pre <+: chunks)
    (fills : huFills r.scan (r.ibuf ++ pre.flatten)) :
    ∃ res, 0 < res ∧ (res, none) ∈ huCalls k r (chunks.map some) := by
  induction k generalizing r chunks pre with
  | zero => exact absurd measure (Nat.not_lt_zero _)
  | succ k ih =>
    obtain ⟨⟨res, pack⟩, r', used, rest, rfl, calls, reads, called⟩ := call_reads ready cut
    rw [calls]
    rcases List.prefix_or_prefix_of_prefix prefix' (List.prefix_append used rest) with short | long
    · -- the chunks before the last one read do not fill it
      by_cases same : pre = used
      · rw [same, reads.fills] at fills
        obtain ⟨rfl, positive⟩ := fills
        exact ⟨res, positive, List.mem_cons_self⟩
      · exact absurd fills (reads.before pre short same)
    · obtain ⟨more, rfl⟩ := long
      by_cases nothing : more.flatten = []
      · rw [List.flatten_append, nothing, List.append_nil, reads.fills] at fills
        obtain ⟨rfl, positive⟩ := fills
        exact ⟨res, positive, List.mem_cons_self⟩
      · rw [List.flatten_append, ← List.append_assoc, reads.behind _ nothing] at fills
        have behind : more <+: rest := (List.prefix_append_right_inj used).mp prefix'
        rcases called.less with less | ⟨-, rfl, -⟩
        · obtain ⟨res', positive, mem⟩ := ih reads.ready
            (fun c mem => cut c (List.mem_append_right used mem)) (by omega) behind fills
          exact ⟨res', positive, List.mem_cons_of_mem _ mem⟩
        · obtain rfl := List.prefix_nil.mp behind
          exact absurd rfl nothing

/-- Every call returns a frame where it says so, of which nothing outside is read, exactly if no
chunk ends where `obuf` is full and each frame is as long as it says. -/
theorem receive_inside_iff (chunks : List (List UInt8))
    (cut : ∀ c ∈ chunks, c.length ≤ huMaxSendLen) :
    (∀ n, ∀ call ∈ huCalls n .initial (chunks.map some), CallInside call) ↔
      (∀ pre, pre <+: chunks → ¬ huFills .start pre.flatten) ∧
        ∀ f ∈ huFrames .start chunks.flatten, AsLongAsSaid f := by
  have four := four_le_frame (Nat.le_refl HuScan.start.step) chunks.flatten
  constructor
  · intro inside
    refine ⟨fun pre prefix' fills => ?_, fun f mem => ?_⟩
    · obtain ⟨res, positive, mem⟩ := calls_filled _ ready_initial cut (Nat.lt_succ_self _) prefix'
        fills
      exact callInside_none.mp (inside _ _ mem) positive
    · rw [← received_initial (Nat.lt_succ_self _), huReceived_calls] at mem
      obtain ⟨⟨res, pack⟩, call, mem⟩ := List.mem_flatMap.mp mem
      obtain rfl : pack = some f := Option.mem_toList.mp mem
      have length := calls_length _ ready_initial cut _ call f rfl
      have safe := inside _ _ call
      rw [show res = f.length from length] at safe
      refine (callInside_some (four f ?_)).mp safe
      rw [← received_initial (Nat.lt_succ_self _), huReceived_calls]
      exact List.mem_flatMap.mpr ⟨_, call, mem⟩
  · rintro ⟨unfilled, long⟩ n
    exact calls_inside n ready_initial cut unfilled fun f mem => ⟨four f mem, long f mem⟩

/-- A heart beat in two chunks. -/
theorem receive_inside_beat :
    huFrames .start [0x0d, 0x05, 0x46, 0x2a, 0, 0, 0x2a, 0x0d, 0x0a] =
        [[0x0d, 0x05, 0x46, 0x2a, 0, 0, 0x2a, 0x0d, 0x0a]] ∧
      ∀ n, ∀ call ∈ huCalls n .initial
        [some [0x0d, 0x05, 0x46, 0x2a], some [0, 0, 0x2a, 0x0d, 0x0a]], CallInside call := by
  refine ⟨by decide, (receive_inside_iff [[0x0d, 0x05, 0x46, 0x2a], [0, 0, 0x2a, 0x0d, 0x0a]]
    (by decide)).mpr ⟨?_, ?_⟩⟩
  · rintro pre ⟨rest, split⟩ fills
    have many : 512 ≤ 0 + pre.flatten.length := huFills_length _ _ fills
    have bytes : (pre ++ rest).flatten.length = 9 := by rw [split]; rfl
    rw [List.flatten_append, List.length_append] at bytes
    omega
  · unfold AsLongAsSaid
    decide

/-- A chunk of an unfinished frame that fills `obuf`, and a frame that ends before the data that
its length byte announces. -/
theorem receive_outside :
    (∃ call ∈ huCalls 1 .initial [some (0x0d :: 0x05 :: List.replicate 510 0)], ¬ CallInside call) ∧
      ∃ call ∈ huCalls 1 .initial [some [0x0d, 0x05, 0x46, 0x44, 0, 0xff, 0, 0x0d, 0x0a]],
        ¬ CallInside call := by
  constructor
  · have calls : huCalls 1 .initial [some (0x0d :: 0x05 :: List.replicate 510 0)] =
        [(512, none)] := by decide +kernel
    rw [calls]
    exact ⟨_, List.mem_cons_self, fun inside => callInside_none.mp inside (by decide)⟩
  · have calls : huCalls 1 .initial [some [0x0d, 0x05, 0x46, 0x44, 0, 0xff, 0, 0x0d, 0x0a]] =
        [(9, some [0x0d, 0x05, 0x46, 0x44, 0, 0xff, 0, 0x0d, 0x0a])] := by decide +kernel
    rw [calls]
    refine ⟨_, List.mem_cons_self, fun inside => ?_⟩
    have said : AsLongAsSaid [0x0d, 0x05, 0x46, 0x44, 0, 0xff, 0, 0x0d, 0x0a] :=
      (callInside_some (by decide)).mp inside
    exact absurd (said.2 (.inr (by decide))) (by decide)

end Hu
