import TBoxMpu.Fota.Core
import TBoxMpu.Lib.Effects

/-!
# The blocks of a download

Each section of an image is announced to the ECU, which answers with the length of a block, sent in
pieces, and ended.

`sections_transferred`: whatever the ECU answers, the blocks of a section carry the beginning of its
data in order, are numbered from 1, and none is longer than was answered; the end is requested only
behind the last byte. With an ECU that takes everything, and answers with at least 3 and fewer than
2 ^ 31 bytes, all sections are sent.
-/

namespace Fota

open Effects

/-! ### The pieces of a section -/

theorem blocks_flatten {plen : Nat} (some : 0 < plen) (left : Nat) (data : List UInt8)
    (enough : data.length ≤ left) : (blocks plen left data).flatten = data := by
  induction left generalizing data with
  | zero =>
    obtain rfl := List.eq_nil_of_length_eq_zero (Nat.le_zero.mp enough)
    rfl
  | succ left ih =>
    unfold blocks
    split
    next empty => exact empty.symm
    · rw [List.flatten_cons, ih (data.drop plen), List.take_append_drop]
      rw [List.length_drop]
      omega

theorem blocks_length {plen left : Nat} {data : List UInt8} :
    ∀ p ∈ blocks plen left data, p.length ≤ plen := by
  induction left generalizing data with
  | zero => exact nofun
  | succ left ih =>
    unfold blocks
    split
    · exact nofun
    · rw [List.forall_mem_cons]
      exact ⟨List.length_take_le plen data, ih⟩

/-! ### The length of a block -/

def bigEndianNat (bytes : List UInt8) : Nat := bytes.foldl (fun n b => n * 256 + b.toNat) 0

/-- The maximum block length in an answer: its first byte says in how many bytes it is given, if
that many follow. -/
def maxBlock : List UInt8 → Option Nat
  | [] => none
  | lfi :: bytes =>
    if (lfi >>> 4).toNat ≤ bytes.length then some (bigEndianNat (bytes.take (lfi >>> 4).toNat))
    else none

/-- What the code makes of this maximum. -/
def blockBytes (n : Nat) : Int :=
  if Int32.ofNat n > 258 then 256 else (Int32.ofNat n - 2).toInt

theorem ofNat_bigEndianNat (bytes : List UInt8) : Int32.ofNat (bigEndianNat bytes) =
    bytes.foldl (fun (plen : Int32) b => plen * 256 + Int32.ofNat b.toNat) 0 := by
  have go : ∀ n : Nat, Int32.ofNat (bytes.foldl (fun n b => n * 256 + b.toNat) n) =
      bytes.foldl (fun (plen : Int32) b => plen * 256 + Int32.ofNat b.toNat) (Int32.ofNat n) := by
    induction bytes with
    | nil => exact fun n => rfl
    | cons b rest ih =>
      intro n
      rw [List.foldl_cons, List.foldl_cons, ih, Int32.ofNat_add, Int32.ofNat_mul]
      rfl
  exact go 0

/-- Arithmetic of an `int` differs by a multiple of 2 ^ 32. -/
theorem int_wraps (x : Int) : ∃ k : Int, x.bmod (2 ^ 32) = x - k * 4294967296 ∧
    -2147483648 ≤ x.bmod (2 ^ 32) ∧ x.bmod (2 ^ 32) < 2147483648 := by
  refine ⟨x.bdiv (2 ^ 32), ?_, Int.le_bmod (by decide), Int.bmod_lt (by decide)⟩
  have parts := Int.bmod_add_bdiv' x (2 ^ 32)
  have size : ((2 ^ 32 : Nat) : Int) = 4294967296 := by decide
  rw [size] at parts
  omega

/-- A block with its service and its number is not longer than the maximum. -/
theorem blockBytes_le (n : Nat) (some : 0 < blockBytes n) : blockBytes n + 2 ≤ n := by
  obtain ⟨k, plen, low, high⟩ := int_wraps n
  obtain ⟨j, minus, -, most⟩ := int_wraps ((n : Int).bmod (2 ^ 32) - 2)
  have two : (2 : Int32).toInt = 2 := rfl
  have limit : (258 : Int32).toInt = 258 := rfl
  have whole : (Int32.ofNat n).toInt = (n : Int).bmod (2 ^ 32) := Int32.toInt_ofNat'
  unfold blockBytes at some ⊢
  split at some
  next above =>
    rw [if_pos above]
    rw [gt_iff_lt, Int32.lt_iff_toInt_lt, limit, whole] at above
    omega
  next other =>
    rw [if_neg other]
    rw [Int32.toInt_sub, two, whole] at some ⊢
    omega

/-- The maxima with room for data that an `int` can hold. -/
theorem blockBytes_pos {n : Nat} (low : 3 ≤ n) (high : n < 2 ^ 31) : 0 < blockBytes n := by
  have plen : (Int32.ofNat n).toInt = n := Int32.toInt_ofNat_of_lt high
  have two : (2 : Int32).toInt = 2 := rfl
  obtain ⟨j, minus, least, most⟩ := int_wraps ((n : Int) - 2)
  unfold blockBytes
  split
  · decide
  · rw [Int32.toInt_sub, plen, two]
    omega

/-! ### One request -/

variable {σ : Type} {env : Env σ} {w w' : World σ}

/-- The world after a request that was sent. -/
def World.asked (w : World σ) (env : Env σ) (sid : Nat) (data : List UInt8) : World σ :=
  { w with
    trace := w.trace ++ [.request false sid 0 data]
    env := (env.udsRequest false sid 0 data 3 w.env).2 }

theorem wp_request {sid : Nat} {data : List UInt8} {Q : Int → World σ → Prop}
    {E : World σ → Prop} (opened : w.udsOpen = true) (short : data.length ≤ 1022) :
    wp (fotaUdsRequest env false sid 0 data 3) Q E w ↔
      Q (env.udsRequest false sid 0 data 3 w.env).1 (w.asked env sid data) := by
  unfold fotaUdsRequest
  rw [wp_bind, wp_get, if_neg (by simp [opened]), if_neg (by omega), wp_bind]
  rfl

def downloadData (sect : ImgSect) : List UInt8 := [0, 0x44] ++ be32 sect.base ++ be32 sect.size

theorem foldl_getD (buf : List UInt8) (l : Nat) (enough : l < buf.length) :
    (List.range l).foldl
      (fun (plen : Int32) k => plen * 256 + Int32.ofNat (buf.getD (k + 1) 0).toNat) 0 =
        Int32.ofNat (bigEndianNat ((buf.drop 1).take l)) := by
  rw [ofNat_bigEndianNat]
  have bytes : (buf.drop 1).take l = (List.range l).map fun k => buf.getD (k + 1) 0 := by
    refine List.ext_getElem (by simp; omega) fun i here there => ?_
    have inside : i + 1 < buf.length := by
      rw [List.length_map, List.length_range] at there
      omega
    simp [List.getElem?_eq_getElem inside]
  rw [bytes, List.foldl_map]

/-- What the code reads from the buffer that an answer was copied into. -/
theorem plen_eq {answer behind : List UInt8} {n : Nat} (given : maxBlock answer = some n) :
    (List.range (((answer ++ behind).getD 0 0) >>> 4).toNat).foldl
      (fun (plen : Int32) k => plen * 256 + Int32.ofNat ((answer ++ behind).getD (k + 1) 0).toNat)
      0 = Int32.ofNat n := by
  cases answer with
  | nil => cases given
  | cons lfi bytes =>
    obtain ⟨follow, rfl⟩ := Option.ite_some_none_eq_some.mp given
    rw [List.cons_append, List.getD_cons_zero, foldl_getD]
    · rw [List.drop_one, List.tail_cons, List.take_append_of_le_length follow]
    · rw [List.length_cons, List.length_append]
      omega

/-- A download is requested; with an answer that fits the code has the length of a block from it. -/
theorem wp_reqDownload {Q : Int → World σ → Prop} {E : World σ → Prop} (sect : ImgSect)
    (opened : w.udsOpen = true)
    (failed : ((env.udsRequest false 0x34 0 (downloadData sect) 3 w.env).1 = 0 →
      ∀ answer, env.udsResult (w.asked env 0x34 (downloadData sect)).env = some answer →
        64 < answer.length) → Q (-1) (w.asked env 0x34 (downloadData sect)))
    (answered : ∀ r answer, env.udsResult (w.asked env 0x34 (downloadData sect)).env = some answer →
      (∀ n, maxBlock answer = some n → r = blockBytes n) →
      Q r { w.asked env 0x34 (downloadData sect) with blkCnt := 0 }) :
    wp (fotaUdsReqDownload env sect.base sect.size) Q E w := by
  have short : (downloadData sect).length ≤ 1022 := by simp [downloadData, be32]
  unfold fotaUdsReqDownload
  change wp (fotaUdsRequest env false 0x34 0 (downloadData sect) 3 >>= _) Q E w
  rw [wp_bind, wp_request opened short]
  apply wp_ite
  · exact fun refused => failed fun taken => absurd taken refused
  intro _
  unfold fotaUdsResult
  rw [bind_assoc, wp_bind, wp_get, pure_bind]
  cases result : (env.udsResult (w.asked env 0x34 (downloadData sect)).env).filter
      fun data => data.length ≤ 64 with
  | none =>
    refine failed fun _ answer given => ?_
    rw [given] at result
    simpa using result
  | some answer =>
    obtain ⟨given, -⟩ := Option.filter_eq_some_iff.mp result
    refine answered _ answer given fun n max => ?_
    unfold blockBytes
    rw [← plen_eq max]

/-! ### The blocks of one section -/

/-- The request that sends a block under its number. -/
def blockRequest (block : List UInt8 × Nat) : FotaEvent :=
  .request false 0x36 0 (UInt8.ofNat block.2 :: block.1)

/-- An ECU that takes every request, and answers a download with a maximum that an `int` can hold
and that leaves room for data; and nobody cancels. -/
structure Accepts (env : Env σ) : Prop where
  takes : ∀ sid data s, (env.udsRequest false sid 0 data 3 s).1 = 0
  answers : ∀ data s, ∃ answer n,
    env.udsResult (env.udsRequest false 0x34 0 data 3 s).2 = some answer ∧
    answer.length ≤ 64 ∧ maxBlock answer = some n ∧ 3 ≤ n ∧ n < 2 ^ 31
  goesOn : ∀ percent s, (env.callback percent s).1 = 0

/-- Of these pieces the first were sent, numbered on from the counter, or `all` of them. -/
structure Sent (env : Env σ) (pieces : List (List UInt8)) (all : Prop) (w w' : World σ) : Prop where
  trace : ∃ sent, sent <+: pieces ∧ (all → sent = pieces) ∧
    w'.trace = w.trace ++ (sent.zipIdx (w.blkCnt + 1)).map blockRequest
  stopped : Accepts env → w.total ≠ 0 → (∀ p ∈ pieces, p.length ≤ 521) → all
  udsOpen : w'.udsOpen = w.udsOpen
  total : w'.total = w.total

theorem Sent.none {pieces : List (List UInt8)} {all : Prop} (part : ¬ all) (w : World σ)
    (stopped : Accepts env → w.total ≠ 0 → (∀ p ∈ pieces, p.length ≤ 521) → False) :
    Sent env pieces all w w where
  trace := ⟨[], List.nil_prefix, fun whole => absurd whole part, by simp⟩
  stopped accepts total small := (stopped accepts total small).elim
  udsOpen := rfl
  total := rfl

/-- The world after the request that sends this block. -/
def World.sentBlock (w : World σ) (env : Env σ) (block : List UInt8) : World σ :=
  { w with blkCnt := w.blkCnt + 1 }.asked env 0x36 (UInt8.ofNat (w.blkCnt + 1) :: block)

/-- A block of a length the code sends, or no block at all. -/
theorem wp_transData {Q : Int → World σ → Prop} {E : World σ → Prop} (opened : w.udsOpen = true)
    (block : List UInt8) (long : 521 < block.length → Q (-1) w)
    (sent : block.length ≤ 521 → Q
      (env.udsRequest false 0x36 0 (UInt8.ofNat (w.blkCnt + 1) :: block) 3 w.env).1
      (w.sentBlock env block)) :
    wp (fotaUdsTransData env block) Q E w := by
  unfold fotaUdsTransData
  apply wp_ite
  · exact fun above => long (by omega)
  · intro below
    have next : { w with blkCnt := w.blkCnt + 1 }.udsOpen = true := opened
    have short : (UInt8.ofNat (w.blkCnt + 1) :: block).length ≤ 1022 := by
      rw [List.length_cons]
      omega
    rw [wp_bind, wp_modify, wp_bind, wp_get, wp_request next short]
    exact sent (by omega)

/-- This block was sent. -/
structure Next (block : List UInt8) (w u : World σ) : Prop where
  trace : u.trace = w.trace ++ [blockRequest (block, w.blkCnt + 1)]
  blkCnt : u.blkCnt = w.blkCnt + 1
  udsOpen : u.udsOpen = w.udsOpen
  total : u.total = w.total

theorem next_sentBlock (env : Env σ) (w : World σ) (block : List UInt8) :
    Next block w (w.sentBlock env block) :=
  ⟨rfl, rfl, rfl, rfl⟩

theorem Sent.cons {block : List UInt8} {rest : List (List UInt8)} {all : Prop} {u : World σ}
    (next : Next block w u) (later : Sent env rest all u w') :
    Sent env (block :: rest) all w w' := by
  obtain ⟨⟨sent, first, whole, trace⟩, stopped, udsOpen, total⟩ := later
  refine ⟨⟨block :: sent, List.cons_prefix_cons.mpr ⟨rfl, first⟩,
    fun every => congrArg _ (whole every), ?_⟩, fun accepts some small => ?_,
    udsOpen.trans next.udsOpen, total.trans next.total⟩
  · rw [trace, next.trace, next.blkCnt, List.zipIdx_cons, List.map_cons, List.append_assoc]
    rfl
  · exact stopped accepts (next.total ▸ some) fun p mem => small p (List.mem_cons_of_mem block mem)

theorem wp_transfer (opened : w.udsOpen = true) (pieces : List (List UInt8)) :
    wp (fotaTransfer env pieces) (fun r => Sent env pieces (r = 0) w)
      (Sent env pieces False w) w := by
  induction pieces generalizing w with
  | nil => exact ⟨⟨[], List.nil_prefix, fun _ => rfl, by simp⟩, fun _ _ _ => rfl, rfl, rfl⟩
  | cons block rest ih =>
    have failed : ¬ ((-1 : Int) = 0) := by decide
    have goes : ∀ u, Next block w u → wp (fotaTransfer env rest)
        (fun r => Sent env (block :: rest) (r = 0) w) (Sent env (block :: rest) False w) u :=
      fun u next => wp_mono (ih (next.udsOpen.trans opened)) (fun _ _ => Sent.cons next)
        fun _ => Sent.cons next
    unfold fotaTransfer
    rw [wp_bind]
    refine wp_transData opened block (fun long => ?_) fun _ => ?_
    · refine Sent.none failed w fun _ _ small => ?_
      have fits := small block List.mem_cons_self
      omega
    have next := next_sentBlock env w block
    generalize w.sentBlock env block = u at next
    apply wp_ite
    · intro refused
      refine Sent.cons next (Sent.none failed u fun accepts _ _ => ?_)
      exact refused (accepts.takes _ _ _)
    intro _
    rw [wp_bind, wp_modify, wp_bind, wp_get]
    have moved : Next block w { u with curr := u.curr + block.length } :=
      ⟨next.trace, next.blkCnt, next.udsOpen, next.total⟩
    generalize { u with curr := u.curr + block.length } = v at moved
    apply wp_ite
    · exact fun zero => Sent.cons moved (Sent.none id v fun _ some _ => some zero)
    intro _
    apply wp_ite
    · -- the call-back may cancel
      intro _
      have answered : ∀ s, Next block w { v with env := s } := fun s =>
        ⟨moved.trace, moved.blkCnt, moved.udsOpen, moved.total⟩
      rw [wp_bind]
      apply wp_ite
      · intro cancelled
        refine Sent.cons (answered _) (Sent.none failed _ fun accepts _ _ => ?_)
        exact cancelled (accepts.goesOn _ _)
      · exact fun _ => goes _ (answered _)
    · exact fun _ => goes v moved

/-! ### The sections of an image -/

def downloadRequest (sect : ImgSect) : FotaEvent := .request false 0x34 0 (downloadData sect)

def exitRequest : FotaEvent := .request false 0x37 0 []

/-- What is sent for a section. Its blocks carry the beginning of its data and are not longer than
the ECU answered; the end is requested only behind all of it. -/
def Download (env : Env σ) (img : FotaImg) (sect : ImgSect) (ended : Bool)
    (w w' : World σ) : Prop :=
  ∃ (pieces : List (List UInt8)) (exit : List FotaEvent),
    w'.trace = w.trace ++ downloadRequest sect :: ((pieces.zipIdx 1).map blockRequest ++ exit) ∧
    pieces.flatten <+: img.bytes sect ∧
    (exit = [] ∨ exit = [exitRequest] ∧ pieces.flatten = img.bytes sect) ∧
    (ended = true → exit = [exitRequest]) ∧
    ∀ answer n, env.udsResult (w.asked env 0x34 (downloadData sect)).env = some answer →
      maxBlock answer = some n → ∀ p ∈ pieces, p.length + 2 ≤ n

/-- The sections are downloaded one after the other, up to the first that fails. -/
inductive Programs (env : Env σ) (img : FotaImg) : List ImgSect → World σ → Bool → World σ → Prop
  | done (w : World σ) : Programs env img [] w true w
  | closed {sect : ImgSect} {rest : List ImgSect} {w : World σ} : w.udsOpen = false →
      Programs env img (sect :: rest) w false w
  | stopped {sect : ImgSect} {rest : List ImgSect} {w w' : World σ} :
      Download env img sect false w w' → Programs env img (sect :: rest) w false w'
  | next {sect : ImgSect} {rest : List ImgSect} {ok : Bool} {w u w' : World σ} :
      Download env img sect true w u → Programs env img rest u ok w' →
      Programs env img (sect :: rest) w ok w'

/-- How a run over these sections ends. -/
structure Outcome (env : Env σ) (img : FotaImg) (sects : List ImgSect) (w : World σ) (ok : Bool)
    (w' : World σ) : Prop where
  programs : Programs env img sects w ok w'
  all : Accepts env → w.udsOpen = true → w.total ≠ 0 → ok = true

theorem blockBytes_small {n : Nat} (high : n < 2 ^ 31) : blockBytes n ≤ 256 := by
  have plen : (Int32.ofNat n).toInt = n := Int32.toInt_ofNat_of_lt high
  have two : (2 : Int32).toInt = 2 := rfl
  have limit : (258 : Int32).toInt = 258 := rfl
  obtain ⟨j, minus, least, most⟩ := int_wraps ((n : Int) - 2)
  unfold blockBytes
  split
  · decide
  next above =>
    rw [gt_iff_lt, Int32.lt_iff_toInt_lt, limit, plen] at above
    rw [Int32.toInt_sub, plen, two]
    omega

/-- The beginning of a download after the blocks `sent` of the section. -/
theorem Download.part {img : FotaImg} {sect : ImgSect} {answer : List UInt8} {r : Int}
    (given : env.udsResult (w.asked env 0x34 (downloadData sect)).env = some answer)
    (block : ∀ n, maxBlock answer = some n → r = blockBytes n) (some : 0 < r)
    {all : Prop} {u : World σ}
    (sent : Sent env (blocks r.toNat (img.bytes sect).length (img.bytes sect)) all
      { w.asked env 0x34 (downloadData sect) with blkCnt := 0 } u) :
    Download env img sect false w u ∧
    (all → ∀ v, v.trace = u.trace ++ [exitRequest] → ∀ ended, Download env img sect ended w v) := by
  obtain ⟨sent, first, whole, trace⟩ := sent.trace
  have room : 0 < r.toNat := by omega
  have flat := blocks_flatten room _ (img.bytes sect) (Nat.le_refl _)
  have begins : sent.flatten <+: img.bytes sect := by
    obtain ⟨rest, eq⟩ := first
    rw [← flat, ← eq, List.flatten_append]
    exact List.prefix_append _ _
  have short : ∀ answer n, env.udsResult (w.asked env 0x34 (downloadData sect)).env = .some answer →
      maxBlock answer = .some n → ∀ p ∈ sent, p.length + 2 ≤ n := by
    intro answer' n given' max p mem
    obtain rfl : answer = answer' := Option.some.inj (given.symm.trans given')
    have le := blocks_length p (first.subset mem)
    have room := blockBytes_le n (block n max ▸ some)
    rw [← block n max] at room
    omega
  have before : u.trace = w.trace ++ downloadRequest sect ::
      ((sent.zipIdx 1).map blockRequest) := by
    rw [trace]
    simp [World.asked, downloadRequest]
  refine ⟨⟨sent, [], by simpa using before, begins, .inl rfl, nofun, short⟩,
    fun every v ends ended =>
      ⟨sent, [exitRequest], ?_, begins, .inr ⟨rfl, ?_⟩, fun _ => rfl, short⟩⟩
  · rw [ends, before]
    simp
  · rw [whole every, flat]

/-- The request for a download is all that was sent. -/
theorem Download.requested (img : FotaImg) (sect : ImgSect) (blk : Nat) :
    Download env img sect false w
      { w.asked env 0x34 (downloadData sect) with blkCnt := blk } :=
  ⟨[], [], rfl, List.nil_prefix, .inl rfl, nofun, fun _ _ _ _ => nofun⟩

theorem wp_request_closed {sid : Nat} {data : List UInt8} {Q : Int → World σ → Prop}
    {E : World σ → Prop} (closed : w.udsOpen = false) :
    wp (fotaUdsRequest env false sid 0 data 3) Q E w ↔ Q (-1) w := by
  unfold fotaUdsRequest
  rw [wp_bind, wp_get, if_pos (by simp [closed])]
  rfl

theorem wp_programs (img : FotaImg) (sects : List ImgSect) :
    wp (fotaProgramSects env img sects) (fun r => Outcome env img sects w (decide (r = 0)))
      (Outcome env img sects w false) w := by
  induction sects generalizing w with
  | nil => exact ⟨.done w, fun _ _ _ => rfl⟩
  | cons sect rest ih =>
    unfold fotaProgramSects
    rw [wp_bind]
    cases opened : w.udsOpen with
    | false =>
      unfold fotaUdsReqDownload
      rw [wp_bind, wp_request_closed opened]
      exact ⟨.closed opened, fun _ opened' => absurd (opened.symm.trans opened') (by decide)⟩
    | true =>
      refine wp_reqDownload sect opened (fun refused => ?_) fun r answer given block => ?_
      · refine ⟨.stopped (Download.requested img sect w.blkCnt), fun accepts _ _ => ?_⟩
        obtain ⟨answer, n, given, short, -⟩ := accepts.answers (downloadData sect) w.env
        have long := refused (accepts.takes _ _ _) answer given
        omega
      -- the block length of an ECU that accepts
      have length : Accepts env → 0 < r ∧ r ≤ 256 := by
        intro accepts
        obtain ⟨answer', n, given', -, max, low, high⟩ :=
          accepts.answers (downloadData sect) w.env
        obtain rfl : answer = answer' := Option.some.inj (given.symm.trans given')
        rw [block n max]
        exact ⟨blockBytes_pos low high, blockBytes_small high⟩
      apply wp_ite
      · intro none
        refine ⟨.stopped (Download.requested img sect 0), fun accepts _ _ => ?_⟩
        have some := (length accepts).1
        omega
      intro some
      have small : Accepts env → ∀ p ∈ blocks r.toNat (img.bytes sect).length (img.bytes sect),
          p.length ≤ 521 := by
        intro accepts p mem
        have le := blocks_length p mem
        have few := (length accepts).2
        omega
      have begun : { w.asked env 0x34 (downloadData sect) with blkCnt := 0 }.udsOpen = true :=
        opened
      dsimp only
      refine wp_seq (wp_transfer begun _) (fun res u sent => ?_) fun u sent => ?_
      · obtain ⟨part, whole⟩ := Download.part given block (by omega) sent
        apply wp_ite
        · intro failed
          refine ⟨.stopped part, fun accepts _ total => ?_⟩
          exact absurd (sent.stopped accepts total (small accepts)) failed
        intro sentAll
        have every : res = 0 := Decidable.not_not.mp sentAll
        have still : u.udsOpen = true := sent.udsOpen.trans opened
        unfold fotaUdsTransExit
        rw [wp_bind, wp_request still (by simp)]
        have ended := whole every (u.asked env 0x37 []) rfl
        apply wp_ite
        · intro refused
          exact ⟨.stopped (ended false), fun accepts _ _ => absurd (accepts.takes _ _ _) refused⟩
        · intro _
          refine wp_mono (ih (w := u.asked env 0x37 [])) (fun r' v later => ?_) fun v later => ?_
          · exact ⟨.next (ended true) later.programs, fun accepts _ total =>
              later.all accepts still (sent.total ▸ total)⟩
          · exact ⟨.next (ended true) later.programs, fun accepts _ total =>
              later.all accepts still (sent.total ▸ total)⟩
      · exact ⟨.stopped (Download.part given block (by omega) sent).1, fun accepts _ total =>
          (sent.stopped accepts total (small accepts)).elim⟩

/-- Whatever the ECU answers: the blocks of each section carry the beginning of its data in order,
numbered from 1, none longer than the ECU answered, and the end is requested only behind all of it.
If the ECU takes everything, answers with a maximum of at least 3 and below 2 ^ 31, and nobody
cancels, all sections are sent. -/
theorem sections_transferred (env : Env σ) (img : FotaImg) (w : World σ) :
    wp (fotaProgramSects env img img.sects)
      (fun r w' => Programs env img img.sects w (decide (r = 0)) w')
      (fun w' => Programs env img img.sects w false w') w ∧
    (Accepts env → w.udsOpen = true → w.total ≠ 0 →
      ∃ w', fotaProgramSects env img img.sects w = .ok 0 w' ∧
        Programs env img img.sects w true w') := by
  have outcome : wp (fotaProgramSects env img img.sects)
      (fun r => Outcome env img img.sects w (decide (r = 0)))
      (Outcome env img img.sects w false) w :=
    wp_programs img img.sects
  refine ⟨wp_mono outcome (fun _ _ => Outcome.programs) fun _ => Outcome.programs,
    fun accepts opened total => ?_⟩
  cases run : fotaProgramSects env img img.sects w with
  | error e w' =>
    have ends := wp_error outcome run
    exact absurd (ends.all accepts opened total) (by decide)
  | ok r w' =>
    have ends := wp_ok outcome run
    have all := ends.all accepts opened total
    obtain rfl : r = 0 := of_decide_eq_true all
    exact ⟨w', rfl, ends.programs⟩

/-! ### A block length without room -/

/-- An ECU that takes everything and answers every request with a maximum of two bytes. -/
def twoBytes : Env Unit where
  tcomSendMsg _ _ s := (0, s)
  udsOpen _ _ _ _ s := (.opened, s)
  udsRequest _ _ _ _ _ s := (0, s)
  udsResult _ := some [0x20, 0, 2]
  imgLoad _ _ _ s := (none, s)
  imgCalc _ _ s := (0, s)
  callback _ s := (0, s)
  fileCopy _ s := (0, s)
  pkgupgrade s := (0, s)

def openClient : World Unit where
  env := ()
  rback _ := false
  callback := false
  curr := 0
  total := 1
  tboxSelfupgrade := false
  blkCnt := 0
  canBaud _ := 0
  udsOpen := true
  trace := []

/-- One section of one byte. -/
def oneByte : FotaImg := ⟨[⟨0x8000, 1, 0⟩], ⟨0, 0, 0⟩, [7]⟩

/-- The block of such an answer has no room for data: nothing of the section is sent. -/
theorem twoBytes_refused : maxBlock [0x20, 0, 2] = some 2 ∧
    oneByte.sects.map oneByte.bytes = [[7]] ∧
    ∃ w', fotaProgramSects twoBytes oneByte oneByte.sects openClient = .ok (-1) w' ∧
      w'.trace = [downloadRequest ⟨0x8000, 1, 0⟩] :=
  ⟨by decide, by decide, _, rfl, rfl⟩

end Fota
