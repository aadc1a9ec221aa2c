import TBoxMpu.Base.Iwdz
import TBoxMpu.Lib.DoubleBuffer

/-!
# The INX recording

`dsu_inxfile.c`: samples are appended to the current buffer while the writer hands the other one
to the buffer of the file, and from there to the file.

## Main result

`inx_loses_nothing`: while every sample finds room, and every stop finds an open file and one of
the buffers empty or nothing at all in them, the samples taken are in the file, in its buffer and
in the two buffers, in order, and the close behind a stop writes all that was taken before it.

## Proof strategy

1. The buffers between two steps are small enough that the buffer of the file takes one of them
2. `Kept` holds between any two steps; from a stop on, what was taken before it waits for the writer
-/

namespace Inx

open Runs DoubleBuffer
open Iwdz (FileSt)

def inxTmpDataSize : Nat := 1024 * 640

def inxTmpDataRsvSize : Nat := 1024 * 64

def inxFileBuf : Nat := 1024 * 1024

def inxTmpTimeout : Int := 2000

def dsuZbufSize : Nat := 1024 * 64

def inxChParaCnt : Nat := 14

def inxChCanCnt : Nat := 1024 - inxChParaCnt

/-- The values of `ParaList` and those of `CanList`, as they are saved: 64 bytes for the first,
a character or a float for each of the others. -/
structure Sample where
  para : List UInt8
  can : List (List UInt8)
  para_length : para.length = 64
  can_count : can.length ≤ inxChCanCnt
  can_length : ∀ value ∈ can, value.length = 1 ∨ value.length = 4

def Sample.bytes (sample : Sample) : List UInt8 := sample.para ++ sample.can.flatten

/-- `inx_tmp` and `inx_file` with the static variables of `inx_file_append`: the buffer of the
file, and what the files hold behind their headers. The file is open where `stat` says so.
`recorded` are the samples taken. -/
structure State where
  tmp : Buffers UInt8
  stat : FileSt
  fbuf : List UInt8
  file : List UInt8
  rsvMax : Nat
  time : Int
  recorded : List Sample

/-- `inx_file_init` -/
def State.initial : State := ⟨.initial, .none, [], [], 1024, 0, []⟩

/-! ### `inx_file_append` -/

/-- `inx_file_append` where the recording has ended. -/
def inxStop (s : State) : State :=
  let tmp := if s.tmp.cur ≠ [] then s.tmp.turn.setCur [] else s.tmp
  -- an open file is asked to be closed
  { s with
    tmp := if s.stat = .opened then tmp else (tmp.setCur []).setSync []
    rsvMax := 1024 }

/-- The first sample of a file asks for it. -/
def inxBegin (now : Int) (s : State) : State :=
  if s.stat = .none then { s with stat := .creating, time := now } else s

/-- The buffers change places, if it is time and the writer is ready; `false` is an overflow. -/
def inxSwap (now : Int) (s : State) : Bool × State :=
  if s.tmp.cur.length > inxTmpDataRsvSize ∨ now - s.time > inxTmpTimeout then
    let s := { s with time := now }
    if s.tmp.sync = [] then (true, { s with tmp := s.tmp.turn })
    else (decide ¬ s.tmp.cur.length + s.rsvMax > inxTmpDataSize, s)
  else (true, s)

/-- `inx_rt_ch_save`; nothing stands for a result of zero or below. -/
def inxRtChSave (sample : Sample) (size : Nat) : List UInt8 :=
  if inxChParaCnt * 8 > size then [] else sample.para

/-- `inx_can_ch_save` -/
def inxCanChSave (sample : Sample) (size : Nat) : List UInt8 :=
  if sample.can.length * 4 > size then [] else sample.can.flatten

/-- The sample is saved, or the buffer is emptied. -/
def inxSave (sample : Sample) (s : State) : State :=
  let pos := s.tmp.cur.length
  let para := inxRtChSave sample (inxTmpDataSize - pos)
  let can := inxCanChSave sample (inxTmpDataSize - (pos + para.length))
  if para = [] ∨ can = [] then { s with tmp := s.tmp.setCur [] }
  else
    { s with
      tmp := s.tmp.setCur (s.tmp.cur ++ para ++ can)
      rsvMax := max s.rsvMax (para.length + can.length) }

/-- `inx_file_append` during the recording. -/
def inxRecord (sample : Sample) (now : Int) (s : State) : State :=
  let swapped := inxSwap now (inxBegin now s)
  let s := { swapped.2 with recorded := swapped.2.recorded ++ [sample] }
  if swapped.1 then inxSave sample s else s

/-! ### The writer -/

/-- `dsu_write_fb` -/
def dsuWriteFb (data : List UInt8) (s : State) : State :=
  if data.length > inxFileBuf - s.fbuf.length then s else { s with fbuf := s.fbuf ++ data }

/-- `dsu_fsync` -/
def dsuFsync (s : State) : State := { s with file := s.file ++ s.fbuf, fbuf := [] }

/-- `dsu_fclose` -/
def dsuFclose (s : State) : State := { dsuFsync s with stat := .none }

/-- The waiting buffer goes to the buffer of the file, or nowhere if it does not fit there. -/
def inxHandOver (s : State) : State :=
  if s.tmp.sync ≠ [] then { dsuWriteFb s.tmp.sync s with tmp := s.tmp.setSync [] } else s

/-- `inx_file_write` -/
def inxFileWrite (s : State) : State :=
  let s := inxHandOver s
  if s.fbuf.length + 1024 > dsuZbufSize then dsuFsync s else s

/-- `inx_file_close` -/
def inxFileClose (s : State) : State := dsuFclose (inxHandOver (dsuFsync s))

/-- `inx_file_create`; the header is behind the buffer of the file when it returns. -/
def inxFileCreate (done : Bool) (s : State) : State :=
  let s := if s.stat = .opened then dsuFclose s else s
  { s with stat := if done then .opened else .none, fbuf := [] }

/-- A call of `inx_file_append` with what `inx_check_stop_record` says, or what the thread of the
writer does, by a message or a timer. -/
inductive Act
  | append (stop : Bool) (sample : Sample) (now : Int)
  | write | sync | close
  | create (done : Bool)
  | diskErr

/-- The writer leaves a file alone that is not open. -/
def step (s : State) : Act → State
  | .append stop sample now => if stop then inxStop s else inxRecord sample now s
  | .write => if s.stat = .opened then inxFileWrite s else s
  | .sync => if s.stat = .opened then dsuFsync s else s
  | .close => if s.stat = .opened then inxFileClose s else s
  | .create done => inxFileCreate done s
  | .diskErr => { (if s.stat = .opened then inxFileClose s else s) with stat := .none }

/-! ### The condition -/

/-- It is time to change the buffers, or the current one is full enough. -/
def Due (s : State) (now : Int) : Prop :=
  s.tmp.cur.length > inxTmpDataRsvSize ∨
    now - (if s.stat = .none then now else s.time) > inxTmpTimeout

/-- A sample has a channel at least, and finds room in the buffer that it goes to. -/
structure Fits (s : State) (sample : Sample) (now : Int) : Prop where
  channels : sample.can ≠ []
  reserve : Due s now → s.tmp.sync ≠ [] → s.tmp.cur.length + s.rsvMax ≤ inxTmpDataSize
  room : ¬(Due s now ∧ s.tmp.sync = []) →
    s.tmp.cur.length + inxChParaCnt * 8 ≤ inxTmpDataSize ∧
      s.tmp.cur.length + 64 + sample.can.length * 4 ≤ inxTmpDataSize

/-- A stop finds the file open and one of the buffers empty, or both of them empty. -/
def StopsWell (s : State) : Prop :=
  s.tmp.cur = [] ∧ s.tmp.sync = [] ∨ s.stat = .opened ∧ (s.tmp.sync = [] ∨ s.tmp.cur = [])

def Good (s : State) : Act → Prop
  | .append stop sample now => if stop then StopsWell s else Fits s sample now
  | _ => True

/-- The steps of the recording, its samples and its stops as they should be. -/
def inxRun : State → Act → State → Prop := Guarded Good fun s act s' => step s act = s'

instance (s : State) (now : Int) : Decidable (Due s now) :=
  inferInstanceAs (Decidable (_ ∨ _))

theorem fits_iff (s : State) (sample : Sample) (now : Int) : Fits s sample now ↔
    sample.can ≠ [] ∧
    (Due s now → s.tmp.sync ≠ [] → s.tmp.cur.length + s.rsvMax ≤ inxTmpDataSize) ∧
    (¬(Due s now ∧ s.tmp.sync = []) →
      s.tmp.cur.length + inxChParaCnt * 8 ≤ inxTmpDataSize ∧
        s.tmp.cur.length + 64 + sample.can.length * 4 ≤ inxTmpDataSize) :=
  ⟨fun ⟨channels, reserve, room⟩ => ⟨channels, reserve, room⟩,
    fun ⟨channels, reserve, room⟩ => ⟨channels, reserve, room⟩⟩

instance (s : State) (sample : Sample) (now : Int) : Decidable (Fits s sample now) :=
  decidable_of_iff' _ (fits_iff s sample now)

instance (s : State) : Decidable (StopsWell s) :=
  inferInstanceAs (Decidable (_ ∨ _))

instance (s : State) : ∀ act, Decidable (Good s act)
  | .append stop sample now =>
    inferInstanceAs (Decidable (if stop then StopsWell s else Fits s sample now))
  | .write | .sync | .close | .create _ | .diskErr => inferInstanceAs (Decidable True)

/-! ### What a step keeps -/

/-- What one buffer holds fits the buffer of the file. -/
structure Shape (s : State) : Prop where
  fbuf : s.fbuf.length + 1024 ≤ dsuZbufSize
  closed : s.stat ≠ .opened → s.fbuf = []
  cur : s.tmp.cur.length ≤ inxTmpDataSize
  sync : s.tmp.sync.length ≤ inxTmpDataSize

def recordedBytes (s : State) : List UInt8 := s.recorded.flatMap Sample.bytes

/-- What is on its way to the file, and behind it what is in the current buffer, are the samples
taken. -/
structure Kept (s : State) : Prop where
  shape : Shape s
  order : s.file ++ s.fbuf ++ s.tmp.sync ++ s.tmp.cur = recordedBytes s

/-- What was taken up to some time is in the file or waits for it. -/
structure Waits (taken : List UInt8) (s : State) : Prop where
  shape : Shape s
  order : taken <+: s.file ++ s.fbuf ++ s.tmp.sync

variable {s : State} {sample : Sample} {now : Int} {taken : List UInt8}

theorem kept_initial : Kept .initial := by
  refine ⟨⟨?_, fun _ => rfl, ?_, ?_⟩, rfl⟩
  · decide
  · exact Nat.zero_le _
  · exact Nat.zero_le _

/-! ### The writer -/

theorem handOver_eq (shape : Shape s) : inxHandOver s =
    { s with fbuf := s.fbuf ++ s.tmp.sync, tmp := s.tmp.setSync [] } := by
  have zbuf : dsuZbufSize = 65536 := rfl
  have tmp : inxTmpDataSize = 655360 := rfl
  have whole : inxFileBuf = 1048576 := rfl
  have fbuf := shape.fbuf
  have sync := shape.sync
  unfold inxHandOver
  split
  · rw [dsuWriteFb, if_neg (by omega)]
  next empty =>
    rw [not_not] at empty
    have same : s.tmp.setSync [] = s.tmp := by
      rw [← empty]
      exact congrArg (Buffers.mk · _ _ s.tmp.apart) (Function.update_eq_self ..)
    rw [empty, List.append_nil, same]

/-- What the writer does moves bytes towards the file, and nothing else. -/
structure Moved (s t : State) : Prop where
  order : t.file ++ t.fbuf ++ t.tmp.sync = s.file ++ s.fbuf ++ s.tmp.sync
  cur : t.tmp.cur = s.tmp.cur
  recorded : t.recorded = s.recorded

theorem Moved.trans {t u : State} (first : Moved s t) (second : Moved t u) : Moved s u :=
  ⟨second.order.trans first.order, second.cur.trans first.cur,
    second.recorded.trans first.recorded⟩

theorem handOver_moved (shape : Shape s) :
    Moved s (inxHandOver s) ∧ (inxHandOver s).tmp.sync = [] := by
  rw [handOver_eq shape]
  exact ⟨⟨by simp, by simp, rfl⟩, by simp⟩

theorem fsync_moved (s : State) : Moved s (dsuFsync s) := ⟨by simp [dsuFsync], rfl, rfl⟩

theorem none_used : ([] : List UInt8).length + 1024 ≤ dsuZbufSize := by decide

theorem Shape.fsync (shape : Shape s) : Shape (dsuFsync s) where
  fbuf := none_used
  closed _ := rfl
  cur := shape.cur
  sync := shape.sync

theorem write_moved (shape : Shape s) (opened : s.stat = .opened) :
    Moved s (inxFileWrite s) ∧ Shape (inxFileWrite s) := by
  obtain ⟨moved, empty⟩ := handOver_moved shape
  have stat : (inxHandOver s).stat = .opened := by rw [handOver_eq shape]; exact opened
  have cur : (inxHandOver s).tmp.cur.length ≤ inxTmpDataSize := moved.cur ▸ shape.cur
  have sync : (inxHandOver s).tmp.sync.length ≤ inxTmpDataSize := empty ▸ Nat.zero_le _
  unfold inxFileWrite
  dsimp only
  split
  · exact ⟨moved.trans (fsync_moved _), none_used, fun _ => rfl, cur, sync⟩
  next low => exact ⟨moved, Nat.le_of_not_lt low, fun not => absurd stat not, cur, sync⟩

/-- Everything that waited is in the file. -/
theorem close_moved (shape : Shape s) : Moved s (inxFileClose s) ∧ Shape (inxFileClose s) ∧
    (inxFileClose s).file = s.file ++ s.fbuf ++ s.tmp.sync := by
  obtain ⟨moved, empty⟩ := handOver_moved shape.fsync
  have all := (fsync_moved s).trans (moved.trans (fsync_moved _))
  have whole : (inxFileClose s).file = s.file ++ s.fbuf ++ s.tmp.sync := by
    rw [← all.order]
    show _ = _ ++ [] ++ (inxHandOver (dsuFsync s)).tmp.sync
    rw [empty, List.append_nil, List.append_nil]
    rfl
  refine ⟨⟨all.order, all.cur, all.recorded⟩,
    ⟨none_used, fun _ => rfl, ?_, ?_⟩, whole⟩
  · exact all.cur ▸ shape.cur
  · show (inxHandOver (dsuFsync s)).tmp.sync.length ≤ _
    rw [empty]
    exact Nat.zero_le _

/-- A step of the writer. -/
theorem writer_moved (shape : Shape s) {act : Act}
    (writer : ∀ stop sample now, act ≠ .append stop sample now) :
    Moved s (step s act) ∧ Shape (step s act) := by
  have stays : Moved s s ∧ Shape s := ⟨⟨rfl, rfl, rfl⟩, shape⟩
  cases act with
  | append stop sample now => exact absurd rfl (writer stop sample now)
  | write =>
    rw [step]
    split
    next opened => exact write_moved shape opened
    · exact stays
  | sync =>
    rw [step]
    split
    · exact ⟨fsync_moved s, shape.fsync⟩
    · exact stays
  | close =>
    rw [step]
    split
    · exact ⟨(close_moved shape).1, (close_moved shape).2.1⟩
    · exact stays
  | create done =>
    show Moved s (inxFileCreate done s) ∧ Shape (inxFileCreate done s)
    rw [inxFileCreate]
    by_cases opened : s.stat = .opened
    · rw [if_pos opened]
      refine ⟨⟨?_, rfl, rfl⟩, none_used, fun _ => rfl, shape.cur, shape.sync⟩
      exact (fsync_moved s).order
    · rw [if_neg opened]
      refine ⟨⟨?_, rfl, rfl⟩, none_used, fun _ => rfl, shape.cur, shape.sync⟩
      rw [shape.closed opened]
  | diskErr =>
    rw [step]
    by_cases opened : s.stat = .opened
    · rw [if_pos opened]
      obtain ⟨moved, shape', -⟩ := close_moved shape
      exact ⟨⟨moved.order, moved.cur, moved.recorded⟩, shape'.fbuf, fun _ => rfl, shape'.cur,
        shape'.sync⟩
    · rw [if_neg opened]
      exact ⟨⟨rfl, rfl, rfl⟩, shape.fbuf, fun _ => shape.closed opened, shape.cur, shape.sync⟩

/-! ### Samples -/

theorem begin_eq (now : Int) (s : State) : ∃ stat, inxBegin now s =
    { s with stat, time := if s.stat = .none then now else s.time } ∧
      (s.stat = .opened → stat = .opened) := by
  unfold inxBegin
  by_cases none : s.stat = .none
  · rw [if_pos none, if_pos none]
    exact ⟨.creating, rfl, fun opened => nomatch none.symm.trans opened⟩
  · rw [if_neg none, if_neg none]
    exact ⟨s.stat, rfl, id⟩

/-- The buffers stay, or change places while one is empty; then the sample is saved. -/
theorem record_eq (fits : Fits s sample now) : ∃ tmp stat time,
    inxRecord sample now s =
      inxSave sample { s with tmp, stat, time, recorded := s.recorded ++ [sample] } ∧
    (s.stat = .opened → stat = .opened) ∧
    (tmp = s.tmp ∧ ¬(Due s now ∧ s.tmp.sync = []) ∨ s.tmp.sync = [] ∧ tmp = s.tmp.turn) := by
  obtain ⟨stat, begun, opened⟩ := begin_eq now s
  unfold inxRecord inxSwap
  rw [begun]
  dsimp only
  by_cases due : s.tmp.cur.length > inxTmpDataRsvSize ∨
      now - (if s.stat = .none then now else s.time) > inxTmpTimeout
  · rw [if_pos due]
    by_cases empty : s.tmp.sync = []
    · rw [if_pos empty]
      exact ⟨s.tmp.turn, stat, now, rfl, opened, .inr ⟨empty, rfl⟩⟩
    · have reserve := fits.reserve due empty
      rw [if_neg empty]
      refine ⟨s.tmp, stat, now, if_pos ?_, opened, .inl ⟨rfl, fun both => empty both.2⟩⟩
      exact decide_eq_true (Nat.not_lt.mpr reserve)
  · rw [if_neg due]
    exact ⟨s.tmp, stat, _, rfl, opened, .inl ⟨rfl, fun both => due both.1⟩⟩

/-- The values of the channels are some bytes, four for each at most. -/
theorem Sample.can_bytes (sample : Sample) (channels : sample.can ≠ []) :
    sample.can.flatten ≠ [] ∧ sample.can.flatten.length ≤ sample.can.length * 4 := by
  have each := sample.can_length
  refine ⟨?_, ?_⟩
  · obtain ⟨value, mem⟩ := List.exists_mem_of_ne_nil _ channels
    intro none
    have empty := List.flatten_eq_nil_iff.mp none value mem
    rcases each value mem with length | length <;> simp [empty] at length
  · revert each
    generalize sample.can = values
    intro each
    induction values with
    | nil => exact Nat.zero_le _
    | cons value rest ih =>
      have first := each value List.mem_cons_self
      have others := ih fun v mem => each v (List.mem_cons_of_mem value mem)
      rw [List.flatten_cons, List.length_append, List.length_cons]
      omega

/-- A sample that finds room is saved as a whole. -/
theorem save_eq (channels : sample.can ≠ [])
    (para : s.tmp.cur.length + inxChParaCnt * 8 ≤ inxTmpDataSize)
    (can : s.tmp.cur.length + 64 + sample.can.length * 4 ≤ inxTmpDataSize) :
    inxSave sample s = { s with
      tmp := s.tmp.setCur (s.tmp.cur ++ sample.bytes)
      rsvMax := max s.rsvMax sample.bytes.length } := by
  have size := sample.para_length
  have some : sample.para ≠ [] := by
    intro none
    rw [none] at size
    cases size
  have values := (sample.can_bytes channels).1
  have written : inxRtChSave sample (inxTmpDataSize - s.tmp.cur.length) = sample.para := by
    rw [inxRtChSave, if_neg (by omega)]
  have behind : inxCanChSave sample (inxTmpDataSize - (s.tmp.cur.length + sample.para.length)) =
      sample.can.flatten := by
    rw [inxCanChSave, if_neg (by omega)]
  unfold inxSave
  dsimp only
  rw [written, behind, if_neg (by simp only [some, values, or_self, not_false_eq_true]),
    List.append_assoc, ← List.length_append]
  rfl

/-- What a call of `inx_file_append` does to the buffers. -/
structure Taken (s t : State) (bytes : List UInt8) : Prop where
  file : t.file = s.file
  fbuf : t.fbuf = s.fbuf
  recorded : recordedBytes t = recordedBytes s ++ bytes
  both : t.tmp.sync ++ t.tmp.cur = s.tmp.sync ++ s.tmp.cur ++ bytes
  waiting : s.tmp.sync <+: t.tmp.sync

theorem record_taken (shape : Shape s) (fits : Fits s sample now) :
    Taken s (inxRecord sample now s) sample.bytes ∧ Shape (inxRecord sample now s) := by
  obtain ⟨tmp, stat, time, recorded, opened, places⟩ := record_eq fits
  have count := sample.can_count
  have bytes : sample.bytes.length ≤ 64 + sample.can.length * 4 := by
    have can := (sample.can_bytes fits.channels).2
    rw [Sample.bytes, List.length_append, sample.para_length]
    omega
  have room : tmp.cur.length + inxChParaCnt * 8 ≤ inxTmpDataSize ∧
      tmp.cur.length + 64 + sample.can.length * 4 ≤ inxTmpDataSize := by
    rcases places with ⟨rfl, stays⟩ | ⟨empty, rfl⟩
    · exact fits.room stays
    -- all channels have room in an empty buffer
    · rw [Buffers.cur_turn, empty]
      have channels : inxChCanCnt = 1010 := rfl
      have size : inxTmpDataSize = 655360 := rfl
      have para : inxChParaCnt = 14 := rfl
      constructor
      · rw [para, size]
        decide
      · rw [List.length_nil]
        omega
  rw [recorded, save_eq fits.channels room.1 room.2]
  have both : tmp.sync ++ tmp.cur = s.tmp.sync ++ s.tmp.cur := by
    rcases places with ⟨rfl, -⟩ | ⟨empty, rfl⟩
    · rfl
    · rw [Buffers.cur_turn, Buffers.sync_turn, empty, List.append_nil, List.nil_append]
  have waiting : s.tmp.sync <+: tmp.sync := by
    rcases places with ⟨rfl, -⟩ | ⟨empty, rfl⟩
    · exact List.prefix_refl _
    · rw [empty]
      exact List.nil_prefix
  have sync : tmp.sync.length ≤ inxTmpDataSize := by
    rcases places with ⟨rfl, -⟩ | ⟨-, rfl⟩
    · exact shape.sync
    · exact shape.cur
  refine ⟨⟨rfl, rfl, ?_, ?_, ?_⟩, ?_, ?_, ?_, ?_⟩
  · show (s.recorded ++ [sample]).flatMap _ = _
    rw [List.flatMap_append, List.flatMap_singleton]
    rfl
  · show (tmp.setCur _).sync ++ (tmp.setCur _).cur = _
    rw [Buffers.sync_setCur, Buffers.cur_setCur, ← List.append_assoc, both]
  · show _ <+: (tmp.setCur _).sync
    rw [Buffers.sync_setCur]
    exact waiting
  · exact shape.fbuf
  · exact fun closed => shape.closed fun was => closed (opened was)
  · show (tmp.setCur (tmp.cur ++ sample.bytes)).cur.length ≤ _
    rw [Buffers.cur_setCur, List.length_append]
    omega
  · show (tmp.setCur _).sync.length ≤ _
    rw [Buffers.sync_setCur]
    exact sync

/-- A stop that is as it should be leaves nothing in the current buffer. -/
theorem stop_taken (shape : Shape s) (well : StopsWell s) :
    Taken s (inxStop s) [] ∧ Shape (inxStop s) ∧
      (inxStop s).tmp.sync = s.tmp.sync ++ s.tmp.cur := by
  have roles : (inxStop s).tmp.sync = s.tmp.sync ++ s.tmp.cur ∧ (inxStop s).tmp.cur = [] := by
    unfold inxStop
    dsimp only
    rcases well with ⟨cur, sync⟩ | ⟨opened, one⟩
    · rw [if_neg (not_not.mpr cur), cur, sync]
      split <;> simp [cur, sync]
    · rw [if_pos opened]
      by_cases cur : s.tmp.cur = []
      · rw [if_neg (not_not.mpr cur), cur, List.append_nil]
        exact ⟨rfl, rfl⟩
      · rw [if_pos cur, one.resolve_right cur]
        simp
  obtain ⟨sync, cur⟩ := roles
  have size : (s.tmp.sync ++ s.tmp.cur).length ≤ inxTmpDataSize := by
    rw [List.length_append]
    rcases well with ⟨cur, sync⟩ | ⟨-, sync | cur⟩
    · rw [cur, sync]
      exact Nat.zero_le _
    · rw [sync, List.length_nil, Nat.zero_add]
      exact shape.cur
    · rw [cur]
      exact shape.sync
  refine ⟨⟨rfl, rfl, (List.append_nil _).symm, ?_, ?_⟩, ⟨shape.fbuf, shape.closed, ?_, ?_⟩, sync⟩
  · rw [sync, cur]
  · rw [sync]
    exact List.prefix_append ..
  · rw [cur]
    exact Nat.zero_le _
  · rw [sync]
    exact size

/-! ### Runs -/

theorem append_taken {stop : Bool} (shape : Shape s) (good : Good s (.append stop sample now)) :
    ∃ bytes, Taken s (step s (.append stop sample now)) bytes ∧
      Shape (step s (.append stop sample now)) := by
  cases stop with
  | false => exact ⟨_, record_taken shape good⟩
  | true =>
    obtain ⟨taken, shape', -⟩ := stop_taken shape good
    exact ⟨[], taken, shape'⟩

theorem Kept.step (kept : Kept s) {act : Act} (good : Good s act) : Kept (step s act) := by
  have order := kept.order
  by_cases append : ∃ stop sample now, act = .append stop sample now
  · obtain ⟨stop, sample, now, rfl⟩ := append
    obtain ⟨bytes, taken, shape⟩ := append_taken kept.shape good
    refine ⟨shape, ?_⟩
    rw [taken.file, taken.fbuf, List.append_assoc, taken.both, taken.recorded, ← order]
    simp only [List.append_assoc]
  · obtain ⟨moved, shape⟩ := writer_moved kept.shape
      fun stop sample now same => append ⟨stop, sample, now, same⟩
    refine ⟨shape, ?_⟩
    rw [moved.order, moved.cur, order, recordedBytes, recordedBytes, moved.recorded]

theorem Waits.step (waits : Waits taken s) {act : Act} (good : Good s act) :
    Waits taken (step s act) := by
  have order := waits.order
  by_cases append : ∃ stop sample now, act = .append stop sample now
  · obtain ⟨stop, sample, now, rfl⟩ := append
    obtain ⟨bytes, taken, shape⟩ := append_taken waits.shape good
    refine ⟨shape, order.trans ?_⟩
    rw [taken.file, taken.fbuf]
    exact (List.prefix_append_right_inj _).mpr taken.waiting
  · obtain ⟨moved, shape⟩ := writer_moved waits.shape
      fun stop sample now same => append ⟨stop, sample, now, same⟩
    exact ⟨shape, moved.order ▸ order⟩

/-- While each sample finds room and each stop is as it should be, nothing is lost. -/
theorem inx_loses_nothing (reach : Reach (· = .initial) inxRun s) :
    s.file ++ s.fbuf ++ s.tmp.sync ++ s.tmp.cur = recordedBytes s ∧
      ∀ sample now s', inxRun s (.append true sample now) s' →
        ∀ s'', Reach (· = s') inxRun s'' → s''.stat = .opened →
          recordedBytes s <+: (step s'' .close).file := by
  have kept : Kept s := reach.invariant (fun _ start => start ▸ kept_initial)
    fun _ _ _ kept ⟨good, step⟩ => step ▸ kept.step good
  refine ⟨kept.order, fun sample now s' ⟨good, stops⟩ s'' later opened => ?_⟩
  have waits : Waits (recordedBytes s) s' := by
    obtain ⟨taken, shape, sync⟩ := stop_taken kept.shape good
    refine stops ▸ ⟨shape, ?_⟩
    have order : (inxStop s).file ++ (inxStop s).fbuf ++ (inxStop s).tmp.sync =
        recordedBytes s := by
      rw [taken.file, taken.fbuf, sync, ← List.append_assoc, kept.order]
    exact order ▸ List.prefix_refl _
  have waits' : Waits (recordedBytes s) s'' := later.invariant (fun _ start => start ▸ waits)
    fun _ _ _ waits ⟨good, step⟩ => step ▸ waits.step good
  rw [step, if_pos opened, (close_moved waits'.shape).2.2]
  exact waits'.order

/-- A run each of whose steps is checked. -/
theorem reach_checked (acts : List Act) {s : State}
    (run : acts.foldlM (fun s act => if Good s act then some (step s act) else none) .initial =
      some s) : Reach (· = .initial) inxRun s := by
  refine Reach.along (.start rfl) acts (fun act _ s t checked => ?_) run
  obtain ⟨good, eq⟩ := Option.ite_none_right_eq_some.mp checked
  exact ⟨good, Option.some.inj eq⟩

/-- A sample of one channel, the same byte everywhere. -/
def tick (b : UInt8) : Sample where
  para := List.replicate 64 b
  can := [[b]]
  para_length := List.length_replicate
  can_count := (by decide : 1 ≤ inxChCanCnt)
  can_length := by simp

/-- The writer comes to the first buffer before the stop. -/
def writtenActs : List Act :=
  [.append false (tick 1) 0, .create true, .append false (tick 2) 3000, .write,
    .append true (tick 0) 3001, .close]

theorem inx_loses_nothing_written :
    ∃ s, writtenActs.foldlM (fun s act => if Good s act then some (step s act) else none) .initial =
        some s ∧
      s.file ++ s.fbuf ++ s.tmp.sync ++ s.tmp.cur = (tick 1).bytes ++ (tick 2).bytes := by
  refine ⟨_, rfl, ?_⟩
  exact (inx_loses_nothing (reach_checked writtenActs rfl)).1

/-- It does not: the sample in that buffer is lost. -/
def unwrittenActs : List Act :=
  [.append false (tick 1) 0, .create true, .append false (tick 2) 3000, .append true (tick 0) 3001,
    .close]

theorem inx_loses :
    let s := unwrittenActs.foldl step .initial
    s.recorded = [tick 1, tick 2] ∧ s.file = (tick 2).bytes ∧ s.fbuf = [] ∧ s.tmp.sync = [] ∧
      s.tmp.cur = [] :=
  ⟨rfl, rfl, rfl, rfl, rfl⟩

end Inx
