import Mathlib.Data.List.TakeWhile
import TBoxMpu.Can.DbcLoad
import TBoxMpu.Can.DbcSuffix

/-!
# Suffixes and the end of the name

The pointer of `dbc_parse_sig_suffix` goes on by the length that a client reports. The clients of
the tree report fixed lengths for texts of several lengths, so that a field at the end of a name may
be shorter than what is reported for it.

`suffix_stays_iff`: the loop ends, and reads nothing behind the zero of the name, if and only if at
each field it comes to the client asked last reports no more characters than are left.
-/

namespace Can

variable {F : Type} {scan : Scan F}

/-! ### The clients of the tree -/

/-- The callbacks that answer `DBC_EVENT_SURFIX`. -/
inductive SurfixClient
  | gb
  | ft
  | hz
  | dsu
  deriving DecidableEq, Repr

/-- The length that `gb_data_parse_surfix`, `ft_data_parse_surfix` and `hz_data_parse_surfix`
return. -/
def dataSurfixLength (scan : Scan F) (sfx : Bytes) : Int32 :=
  if (scan.gbField sfx).isSome then 5 else 0

/-- The length that `iwd_fault_dbc_surfix` returns; `iwdField` is what `sscanf` reads with its
format. -/
def iwdSurfixLength (iwdField : Bytes → Option UInt32) (sfx : Bytes) : Int32 :=
  if sfx.headD 0 = 0x45 ∧ (iwdField (sfx.drop 1)).isSome then 3 else 0  -- 'E'

/-- What the callback answers while a file is loaded. -/
def SurfixClient.surfix (scan : Scan F) (iwdField : Bytes → Option UInt32) (sfx : Bytes) :
    SurfixClient → Int32
  | .gb => dataSurfixLength scan sfx
  | .ft => dataSurfixLength scan sfx
  | .hz => dataSurfixLength scan sfx
  | .dsu => iwdSurfixLength iwdField sfx

def SurfixClient.client : SurfixClient → Client
  | .gb => .gb
  | .ft => .other 0
  | .hz => .other 1
  | .dsu => .other 2

def surfixTakers (scan : Scan F) (iwdField : Bytes → Option UInt32) : Takers where
  takes n _ sfx :=
    if n = 2 then iwdSurfixLength iwdField sfx else dataSurfixLength scan sfx
  nonneg n _ sfx := by
    unfold iwdSurfixLength dataSurfixLength
    split
    · split <;> decide
    · split <;> decide

theorem taken_surfix (scan : Scan F) (iwdField : Bytes → Option UInt32) (id : Nat) (sfx : Bytes)
    (c : SurfixClient) :
    (surfixTakers scan iwdField).taken scan id sfx c.client = c.surfix scan iwdField sfx := by
  cases c <;> rfl

/-- What `sscanf` reads stands in the string: behind `@` there is a character, behind `M` and its
value an `I`, and a field begins with `G`. -/
structure Scan.Reads (scan : Scan F) : Prop where
  port : ∀ p v, scan.sfxPort p = some v → (p.drop 1).headD 0 ≠ 0
  cond : ∀ p v, scan.sfxMatch p = some v → 0x49 ∈ (p.drop 1).takeWhile (· ≠ 0)
  field : ∀ p v, scan.gbField p = some v → p.headD 0 = 0x47

/-! ### The loop -/

/-- One turn of `while (*p)`; `none` where the loop is left. -/
def sfxTurn (scan : Scan F) (clients : List Client) (answers : Answers) (sig : Nat)
    (at_ : Bytes × SfxState F) : Option (Bytes × SfxState F) :=
  if at_.1.headD 0 = 0 then none
  else
    match sfxStep scan clients answers sig at_.1 at_.2 with
    | (none, _) => none
    | (some p, s) => some (p, s)

/-- Where the loop is after `n` turns. -/
def sfxTurns (scan : Scan F) (clients : List Client) (answers : Answers) (sig : Nat)
    (start : Option (Bytes × SfxState F)) : Nat → Option (Bytes × SfxState F)
  | 0 => start
  | n + 1 => (sfxTurns scan clients answers sig start n).bind (sfxTurn scan clients answers sig)

/-- The pointers that `while (test(*p)) p++` reads. -/
def readsWhile (test : UInt8 → Bool) : Bytes → List Bytes
  | [] => [[]]
  | c :: rest => (c :: rest) :: if test c then readsWhile test rest else []

/-- The pointers that a turn at `p` reads, the formats and the clients apart, which read from `p` on
to the zero at most. -/
def sfxReads (scan : Scan F) (clients : List Client) (answers : Answers) (sig : Nat)
    (at_ : Bytes × SfxState F) : List Bytes :=
  at_.1 :: if (sfxTurn scan clients answers sig at_).isNone then []
    else if at_.1.headD 0 = 0x4D then  -- 'M'
      readsWhile (· ≠ 0x49) (at_.1.drop 1) ++
        readsWhile isDigit (((at_.1.drop 1).dropWhile (· ≠ 0x49)).drop 1)
    else if at_.1.headD 0 = 0x49 then readsWhile isDigit (at_.1.drop 1)  -- 'I'
    else []

/-- The suffix of a name in front of what lies behind it, where there is one. -/
def sfxStart (name stack : Bytes) (s : SfxState F) : Option (Bytes × SfxState F) :=
  (dbcGetSigSuffix name).2.map fun sfx =>
    (sfx ++ 0 :: stack, { s with sig := { s.sig with suffix := sfx.take (dbcSuffixLen - 1) } })

/-- At or before the zero that ends the name. -/
def InString (stack p : Bytes) : Prop := (0 :: stack) <:+ p

/-- The characters from `p` to the zero. -/
def charsLeft (stack p : Bytes) : Nat := p.length - (stack.length + 1)

/-- The loop ends, and every pointer it reads is in the name. -/
structure StaysIn (scan : Scan F) (clients : List Client) (answers : Answers) (sig : Nat)
    (stack : Bytes) (start : Option (Bytes × SfxState F)) : Prop where
  ends : ∃ n, sfxTurns scan clients answers sig start n = none
  inside : ∀ n at_, sfxTurns scan clients answers sig start n = some at_ →
    ∀ p ∈ sfxReads scan clients answers sig at_, InString stack p

/-! ### Pointers -/

variable {stack p q p' : Bytes} {clients : List Client} {answers : Answers} {sig : Nat}
  {s s' : SfxState F}

theorem inString_drop {k : Nat} (inside : InString stack p) :
    InString stack (p.drop k) ↔ k ≤ charsLeft stack p := by
  obtain ⟨front, rfl⟩ := inside
  unfold InString charsLeft
  rw [List.length_append, List.length_cons, Nat.add_sub_cancel_right]
  constructor
  · intro behind
    have length := behind.length_le
    rw [List.length_drop, List.length_append, List.length_cons] at length
    omega
  · intro some
    rw [List.drop_append_of_le_length some]
    exact List.suffix_append _ _

theorem InString.next (inside : InString stack p) (going : p.headD 0 ≠ 0) :
    InString stack (p.drop 1) := by
  obtain ⟨front, rfl⟩ := inside
  cases front with
  | nil => exact absurd rfl going
  | cons c front => exact ⟨front, rfl⟩

/-- A loop over characters that stops at a zero stops in the name. -/
theorem InString.dropWhile {test : UInt8 → Bool} (inside : InString stack p)
    (zero : test 0 = false) : InString stack (p.dropWhile test) := by
  obtain ⟨front, rfl⟩ := inside
  induction front with
  | nil =>
    rw [List.nil_append, List.dropWhile_cons_of_neg (by rw [zero]; exact Bool.false_ne_true)]
    exact List.suffix_refl _
  | cons c front ih =>
    rw [List.cons_append, List.dropWhile_cons]
    split
    · exact ih
    · exact ⟨c :: front, rfl⟩

/-- A loop to a character that is in front of the zero stops at it. -/
theorem InString.find {c : UInt8} (inside : InString stack p)
    (found : c ∈ p.takeWhile (· ≠ 0)) :
    InString stack (p.dropWhile (· ≠ c)) ∧ (p.dropWhile (· ≠ c)).headD 0 = c := by
  induction p with
  | nil => cases found
  | cons b rest ih =>
    by_cases zero : b = 0
    · rw [List.takeWhile_cons_of_neg (by simpa using zero)] at found
      cases found
    · rw [List.takeWhile_cons_of_pos (by simpa using zero)] at found
      by_cases here : b = c
      · rw [List.dropWhile_cons_of_neg (by simpa using here)]
        exact ⟨inside, here⟩
      · rw [List.dropWhile_cons_of_pos (by simpa using here)]
        exact ih (inside.next zero) ((List.mem_cons.mp found).resolve_left (Ne.symm here))

theorem readsWhile_before {test : UInt8 → Bool} (read : q ∈ readsWhile test p) :
    p.dropWhile test <:+ q := by
  induction p with
  | nil =>
    cases List.mem_singleton.mp read
    exact List.suffix_refl _
  | cons c rest ih =>
    rcases List.mem_cons.mp read with rfl | later
    · exact List.dropWhile_suffix test
    · rw [List.dropWhile_cons]
      split at later
      next passed =>
        rw [if_pos passed]
        exact ih later
      · cases later

/-! ### Turns -/

theorem sfxTurn_some {at_ next : Bytes × SfxState F}
    (turn : sfxTurn scan clients answers sig at_ = some next) :
    at_.1.headD 0 ≠ 0 ∧ (sfxStep scan clients answers sig at_.1 at_.2).1 = some next.1 := by
  unfold sfxTurn at turn
  split at turn
  · cases turn
  next going =>
    refine ⟨going, ?_⟩
    split at turn
    · cases turn
    next step =>
      cases turn
      rw [step]

/-- What a turn reads is at or before the place where it goes on. -/
theorem sfxReads_before (turn : sfxTurn scan clients answers sig (p, s) = some (p', s'))
    (read : q ∈ sfxReads scan clients answers sig (p, s)) : p' <:+ q := by
  obtain ⟨-, step⟩ := sfxTurn_some turn
  unfold sfxReads at read
  rw [turn, Option.isNone_some, if_neg Bool.false_ne_true] at read
  dsimp only at read step
  obtain ⟨is, -, rfl⟩ | ⟨is, rfl⟩ | ⟨is, -, rfl⟩ | ⟨is, rfl⟩ | ⟨field, ret, rfl⟩ :=
    sfxStep_cases step
  · rw [is, if_neg (by decide), if_neg (by decide)] at read
    rw [List.mem_singleton.mp read]
    exact List.drop_suffix 2 p
  · rw [is, if_neg (by decide), if_neg (by decide)] at read
    rw [List.mem_singleton.mp read]
    exact List.drop_suffix 1 p
  · rw [is, if_pos rfl] at read
    have value : (((p.drop 1).dropWhile (· ≠ 0x49)).drop 1).dropWhile isDigit <:+
        (p.drop 1).dropWhile (· ≠ 0x49) :=
      (List.dropWhile_suffix _).trans (List.drop_suffix 1 _)
    rcases List.mem_cons.mp read with rfl | later
    · exact value.trans ((List.dropWhile_suffix _).trans (List.drop_suffix 1 q))
    · rcases List.mem_append.mp later with read | read
      · exact value.trans (readsWhile_before read)
      · exact readsWhile_before read
  · rw [is, if_neg (by decide), if_pos rfl] at read
    rcases List.mem_cons.mp read with rfl | later
    · exact (List.dropWhile_suffix _).trans (List.drop_suffix 1 q)
    · exact readsWhile_before later
  · rw [if_neg field.2.2.1, if_neg field.2.2.2] at read
    rw [List.mem_singleton.mp read]
    exact List.drop_suffix _ p

/-- From a place in the name every keyword leads to one in the name. -/
theorem keyword_inside (reads : scan.Reads) (inside : InString stack p)
    (keyword : ¬ Field p) {at_ : Bytes × SfxState F}
    (turn : sfxTurn scan clients answers sig (p, s) = some at_) : InString stack at_.1 := by
  obtain ⟨p', s'⟩ := at_
  obtain ⟨going, step⟩ := sfxTurn_some turn
  have next := inside.next going
  obtain ⟨-, read, rfl⟩ | ⟨-, rfl⟩ | ⟨-, read, rfl⟩ | ⟨-, rfl⟩ | ⟨field, -⟩ := sfxStep_cases step
  · obtain ⟨v, read⟩ := Option.isSome_iff_exists.mp read
    have two := next.next (reads.port p v read)
    rwa [List.drop_drop] at two
  · exact next
  · obtain ⟨v, read⟩ := Option.isSome_iff_exists.mp read
    obtain ⟨index, is⟩ := next.find (reads.cond p v read)
    refine (index.next ?_).dropWhile (by decide)
    rw [is]
    decide
  · exact next.dropWhile (by decide)
  · exact absurd field keyword

/-! ### Fields -/

variable {iwdField : Bytes → Option UInt32} {asked : List SurfixClient}

/-- The answer of the client that is asked last. -/
def lastAnswer (scan : Scan F) (iwdField : Bytes → Option UInt32) (asked : List SurfixClient)
    (p : Bytes) : Int32 :=
  (asked.map (SurfixClient.surfix scan iwdField p)).getLastD 0

/-- A client that takes a field finds its own letter there. -/
theorem surfix_taken (reads : scan.Reads) {c : SurfixClient}
    (taken : 0 < c.surfix scan iwdField p) :
    (p.headD 0 = 0x45 ∧ c.surfix scan iwdField p = 3) ∨
      (p.headD 0 = 0x47 ∧ c.surfix scan iwdField p = 5) := by
  have data : 0 < dataSurfixLength scan p →
      p.headD 0 = 0x47 ∧ dataSurfixLength scan p = 5 := by
    intro taken
    unfold dataSurfixLength at taken ⊢
    by_cases own : (scan.gbField p).isSome
    · obtain ⟨v, read⟩ := Option.isSome_iff_exists.mp own
      exact ⟨reads.field p v read, if_pos own⟩
    · rw [if_neg own] at taken
      exact absurd taken (by decide)
  cases c with
  | gb => exact .inr (data taken)
  | ft => exact .inr (data taken)
  | hz => exact .inr (data taken)
  | dsu =>
    left
    change 0 < iwdSurfixLength iwdField p at taken
    change _ ∧ iwdSurfixLength iwdField p = 3
    unfold iwdSurfixLength at taken ⊢
    by_cases own : p.headD 0 = 0x45 ∧ (iwdField (p.drop 1)).isSome
    · exact ⟨own.1, if_pos own⟩
    · rw [if_neg own] at taken
      exact absurd taken (by decide)

theorem field_surfix (sig : Nat) (p : Bytes) :
    (surfixTakers scan iwdField).field sig scan (asked.map SurfixClient.client) p =
      asked.map (SurfixClient.surfix scan iwdField p) := by
  unfold Takers.field
  rw [List.map_map]
  exact List.map_congr_left fun c _ => taken_surfix scan iwdField (sig + 1) p c

/-- The clients of the tree are never in conflict. -/
theorem surfix_agree (reads : scan.Reads) :
    ¬ Conflict (asked.map (SurfixClient.surfix scan iwdField p)) := by
  rintro ⟨a, mem, b, mem', positive, positive', differ⟩
  obtain ⟨c, -, rfl⟩ := List.mem_map.mp mem
  obtain ⟨d, -, rfl⟩ := List.mem_map.mp mem'
  obtain ⟨letter, three⟩ | ⟨letter, five⟩ := surfix_taken reads positive
  · obtain ⟨-, three'⟩ | ⟨letter', -⟩ := surfix_taken reads positive'
    · exact differ (three.trans three'.symm)
    · exact absurd (letter.symm.trans letter') (by decide)
  · obtain ⟨letter', -⟩ | ⟨-, five'⟩ := surfix_taken reads positive'
    · exact absurd (letter.symm.trans letter') (by decide)
    · exact differ (five.trans five'.symm)

theorem field_turn (iwdField : Bytes → Option UInt32) (reads : scan.Reads)
    (room : asked.length ≤ dbcMaxCallback)
    (going : p.headD 0 ≠ 0) (field : Field p) (sig : Nat) (s : SfxState F) :
    ∃ s', sfxTurn scan (asked.map SurfixClient.client) (surfixTakers scan iwdField).answers sig
      (p, s) = some (p.drop (advance (lastAnswer scan iwdField asked p)), s') := by
  have few : (asked.map SurfixClient.client).length ≤ dbcMaxCallback := by
    rwa [List.length_map]
  obtain ⟨-, -, on⟩ := sfxStep_field (surfixTakers scan iwdField) sig scan few field s
  rw [field_surfix] at on
  have next := on (surfix_agree reads)
  unfold sfxTurn
  rw [if_neg going]
  cases step : sfxStep scan (asked.map SurfixClient.client) (surfixTakers scan iwdField).answers sig
      p s with
  | mk to_ s' =>
    rw [step] at next
    dsimp only at next ⊢
    rw [next]
    exact ⟨s', rfl⟩

/-! ### Runs -/

variable {start : Option (Bytes × SfxState F)}

theorem sfxTurns_shorter {n : Nat} {at₀ at_ : Bytes × SfxState F}
    (reached : sfxTurns scan clients answers sig (some at₀) n = some at_) :
    at_.1.length + n ≤ at₀.1.length := by
  induction n generalizing at_ with
  | zero =>
    cases reached
    exact Nat.le_refl _
  | succ n ih =>
    obtain ⟨before, earlier, turn⟩ := Option.bind_eq_some_iff.mp reached
    obtain ⟨going, step⟩ := sfxTurn_some turn
    have shorter := sfxStep_shorter going step
    have := ih earlier
    omega

/-- The loop ends, in the name or behind it: every turn takes a character. -/
theorem sfxTurns_end (scan : Scan F) (clients : List Client) (answers : Answers) (sig : Nat)
    (start : Option (Bytes × SfxState F)) :
    ∃ n, sfxTurns scan clients answers sig start n = none := by
  cases start with
  | none => exact ⟨0, rfl⟩
  | some at₀ =>
    refine ⟨at₀.1.length + 1, Option.eq_none_iff_forall_ne_some.mpr fun at_ reached => ?_⟩
    have := sfxTurns_shorter reached
    omega

theorem sfxTurns_next (n : Nat) : sfxTurns scan clients answers sig start (n + 1) =
    sfxTurns scan clients answers sig (start.bind (sfxTurn scan clients answers sig)) n := by
  induction n with
  | zero => rfl
  | succ n ih => exact congrArg (·.bind (sfxTurn scan clients answers sig)) ih

/-- The loop of the loader makes these turns, to the last one: `return *p`. -/
theorem sfxLoop_turns {n : Nat} (enough : p.length ≤ n) :
    ∃ m at_, sfxTurns scan clients answers sig (some (p, s)) m = some at_ ∧
      sfxTurn scan clients answers sig at_ = none ∧
      (sfxLoop scan clients answers sig n p s).1 = decide (at_.1.headD 0 = 0) := by
  induction n generalizing p s with
  | zero =>
    have ends : p.headD 0 = 0 := by rw [List.length_eq_zero_iff.mp (Nat.le_zero.mp enough)]; rfl
    exact ⟨0, (p, s), rfl, if_pos ends, rfl⟩
  | succ n ih =>
    by_cases ends : p.headD 0 = 0
    · refine ⟨0, (p, s), rfl, if_pos ends, ?_⟩
      rw [sfxLoop, if_pos ends]
      exact (decide_eq_true ends).symm
    · rw [sfxLoop, if_neg ends]
      cases step : sfxStep scan clients answers sig p s with
      | mk next s' =>
        cases next with
        | none =>
          refine ⟨0, (p, s), rfl, ?_, (decide_eq_false ends).symm⟩
          unfold sfxTurn
          rw [if_neg ends, step]
        | some p' =>
          have shorter : p'.length < p.length :=
            sfxStep_shorter ends (congrArg Prod.fst step)
          obtain ⟨m, at_, reached, last, result⟩ := @ih p' s' (by omega)
          refine ⟨m + 1, at_, ?_, last, result⟩
          have turn : sfxTurn scan clients answers sig (p, s) = some (p', s') := by
            unfold sfxTurn
            rw [if_neg ends, step]
          rw [sfxTurns_next, Option.bind_some, turn]
          exact reached

/-- Every field the loop comes to has as many characters as the client asked last reports. -/
def LastFits (scan : Scan F) (iwdField : Bytes → Option UInt32) (asked : List SurfixClient)
    (sig : Nat) (stack : Bytes) (start : Option (Bytes × SfxState F)) : Prop :=
  ∀ n p s, sfxTurns scan (asked.map SurfixClient.client) (surfixTakers scan iwdField).answers sig
      start n = some (p, s) → p.headD 0 ≠ 0 → Field p →
    (lastAnswer scan iwdField asked p).toInt ≤ charsLeft stack p

theorem advance_fits {ret : Int32} {k : Nat} (some : 1 ≤ k) :
    advance ret ≤ k ↔ ret.toInt ≤ k := by
  unfold advance
  have zero : (0 : Int32).toInt = 0 := rfl
  split
  next positive =>
    rw [gt_iff_lt, Int32.lt_iff_toInt_lt, zero] at positive
    omega
  next other =>
    rw [gt_iff_lt, Int32.lt_iff_toInt_lt, zero] at other
    omega

theorem LastFits.inside (fits : LastFits scan iwdField asked sig stack start)
    (reads : scan.Reads) (room : asked.length ≤ dbcMaxCallback)
    (begins : ∀ at_, start = some at_ → InString stack at_.1) {n : Nat} {at_ : Bytes × SfxState F}
    (reached : sfxTurns scan (asked.map SurfixClient.client) (surfixTakers scan iwdField).answers
      sig start n = some at_) : InString stack at_.1 := by
  induction n generalizing at_ with
  | zero => exact begins at_ reached
  | succ n ih =>
    obtain ⟨⟨p, s⟩, earlier, turn⟩ := Option.bind_eq_some_iff.mp reached
    have inside : InString stack p := ih earlier
    obtain ⟨going, -⟩ := sfxTurn_some turn
    by_cases field : Field p
    · obtain ⟨s', next⟩ := field_turn iwdField reads room going field sig s
      cases next.symm.trans turn
      have left : 1 ≤ charsLeft stack p := (inString_drop inside).mp (inside.next going)
      exact (inString_drop inside).mpr
        ((advance_fits left).mpr (fits n p s earlier going field))
    · exact keyword_inside reads inside field turn

theorem stays_of_fits (fits : LastFits scan iwdField asked sig stack start)
    (reads : scan.Reads) (room : asked.length ≤ dbcMaxCallback)
    (begins : ∀ at_, start = some at_ → InString stack at_.1) :
    StaysIn scan (asked.map SurfixClient.client) (surfixTakers scan iwdField).answers sig stack
      start := by
  refine ⟨sfxTurns_end _ _ _ _ _, fun n at_ reached q read => ?_⟩
  cases turn : sfxTurn scan (asked.map SurfixClient.client)
      (surfixTakers scan iwdField).answers sig at_ with
  | none =>
    unfold sfxReads at read
    rw [turn, Option.isNone_none, if_pos rfl] at read
    rw [List.mem_singleton.mp read]
    exact fits.inside reads room begins reached
  | some next =>
    have later : sfxTurns scan (asked.map SurfixClient.client)
        (surfixTakers scan iwdField).answers sig start (n + 1) = some next :=
      Option.bind_eq_some_iff.mpr ⟨at_, reached, turn⟩
    exact (fits.inside reads room begins later).trans (sfxReads_before turn read)

theorem fits_of_stays (stays : StaysIn scan (asked.map SurfixClient.client)
      (surfixTakers scan iwdField).answers sig stack start)
    (reads : scan.Reads) (room : asked.length ≤ dbcMaxCallback) :
    LastFits scan iwdField asked sig stack start := by
  intro n p s reached going field
  have inside : InString stack p := stays.inside n (p, s) reached p List.mem_cons_self
  obtain ⟨s', turn⟩ := field_turn iwdField reads room going field sig s
  have behind : InString stack (p.drop (advance (lastAnswer scan iwdField asked p))) :=
    stays.inside (n + 1) _ (Option.bind_eq_some_iff.mpr ⟨(p, s), reached, turn⟩) _
      List.mem_cons_self
  have left : 1 ≤ charsLeft stack p := (inString_drop inside).mp (inside.next going)
  exact (advance_fits left).mp ((inString_drop inside).mp behind)

/-- For every name and every list of the tree's clients: the loop over the suffix ends and reads
nothing behind the name's zero, if and only if at each field that it comes to the client asked last
reports at most the characters that are left. -/
theorem suffix_stays_iff (scan : Scan F) (iwdField : Bytes → Option UInt32)
    (asked : List SurfixClient) (sig : Nat) (name stack : Bytes) (s : SfxState F)
    (reads : scan.Reads) (room : asked.length ≤ dbcMaxCallback) :
    StaysIn scan (asked.map SurfixClient.client) (surfixTakers scan iwdField).answers sig stack
        (sfxStart name stack s) ↔
      LastFits scan iwdField asked sig stack (sfxStart name stack s) := by
  have begins : ∀ at_, sfxStart name stack s = some at_ → InString stack at_.1 := by
    intro at_ is
    obtain ⟨sfx, -, rfl⟩ := Option.map_eq_some_iff.mp is
    exact List.suffix_append _ _
  exact ⟨fun stays => fits_of_stays stays reads room,
    fun fits => stays_of_fits fits reads room begins⟩

theorem sampleScan_reads : sampleScan.Reads := by
  refine ⟨nofun, nofun, fun p v read => ?_⟩
  unfold sampleScan at read
  dsimp only at read
  split at read
  next is =>
    obtain ⟨rest, rfl⟩ := is
    rfl
  · split at read
    next is =>
      obtain ⟨rest, rfl⟩ := is
      rfl
    · cases read

theorem scanG10_reads : scanG10.Reads := by
  refine ⟨nofun, nofun, fun p v read => ?_⟩
  unfold scanG10 at read
  dsimp only at read
  split at read
  next is =>
    obtain _ | ⟨c, rest⟩ := p
    · cases is
    · exact (List.cons.inj is).1
  · cases read

/-- The five characters of `G1001` are the whole suffix. -/
theorem suffix_stays_whole :
    StaysIn sampleScan [Client.gb] (surfixTakers sampleScan fun _ => none).answers 0 []
      (sfxStart (text "v_G1001") [] ⟨.cleared 0, 0, List.replicate 64 none, []⟩) := by
  refine (suffix_stays_iff sampleScan (fun _ => none) [.gb] 0 (text "v_G1001") [] _
    sampleScan_reads (by decide)).mpr ?_
  rintro (_ | n) p s reached going field
  · cases reached
    decide
  -- behind the field there is the zero
  · rw [sfxTurns_next] at reached
    have behind : ((sfxStart (text "v_G1001") [] ⟨.cleared 0, 0, List.replicate 64 none, []⟩).bind
        (sfxTurn sampleScan ([SurfixClient.gb].map SurfixClient.client)
          (surfixTakers sampleScan fun _ => none).answers 0)).map Prod.fst = some [0] := by
      decide
    obtain ⟨at_, is, zero⟩ := Option.map_eq_some_iff.mp behind
    rw [is] at reached
    have shorter := sfxTurns_shorter reached
    rw [zero, List.length_singleton] at shorter
    dsimp only at shorter
    cases n with
    | zero =>
      cases reached
      exact absurd (congrArg (·.headD 0) zero) going
    | succ n =>
      have nil : p = [] := List.length_eq_zero_iff.mp (by omega)
      exact absurd (congrArg (·.headD 0) nil) going

/-- The three characters of `G10` are taken for five. -/
theorem suffix_passes_zero :
    (sfxTurns scanG10 [Client.gb] (surfixTakers scanG10 fun _ => none).answers 0
        (sfxStart (text "v_G10") (text "ABC") .fresh) 1).map Prod.fst = some (text "BC") ∧
      ¬ StaysIn scanG10 [Client.gb] (surfixTakers scanG10 fun _ => none).answers 0 (text "ABC")
        (sfxStart (text "v_G10") (text "ABC") .fresh) := by
  have behind : (sfxTurns scanG10 [Client.gb] (surfixTakers scanG10 fun _ => none).answers 0
      (sfxStart (text "v_G10") (text "ABC") .fresh) 1).map Prod.fst = some (text "BC") := by
    decide
  refine ⟨behind, fun stays => ?_⟩
  obtain ⟨at_, reached, is⟩ := Option.map_eq_some_iff.mp behind
  have inside := (stays.inside 1 at_ reached at_.1 List.mem_cons_self).length_le
  rw [is] at inside
  revert inside
  decide

end Can
