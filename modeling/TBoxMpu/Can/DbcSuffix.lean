import Mathlib.Data.List.Basic
import TBoxMpu.Can.Dbc

/-!
# Suffixes and the order of the clients

`dbc_parse_sig_suffix` for clients of which each takes a field of the suffix, with a length, or
leaves it alone. Lengths that differ are refused in every order. But the pointer goes on by the
last answer: a client that leaves the field alone, registered behind the one that takes it, makes
the rest of the field be read again from its second character on.

## Main result

`suffix_order_iff`: the order is of no effect exactly if no field is taken with two characters or
more by a client and left alone by another.

## Proof strategy

1. Of the answers to a field the loop over the clients keeps the last one, or finds a conflict
2. `sfxPath` is the way of the pointer, which depends on `mc` and the match table only
3. Up to the first such field every order follows the reading in which only the clients that take
   a field are asked
-/

namespace Can

variable {F : Type} {scan : Scan F}

/-! ### Clients that take a field or leave it alone -/

/-- The length with which a client takes a field of the signal `id`, or zero. -/
structure Takers where
  takes : Nat → Nat → Bytes → Int32
  nonneg : ∀ n id sfx, 0 ≤ takes n id sfx

/-- The answers depend on the call alone. -/
def Takers.answers (t : Takers) : Answers := fun calls =>
  match calls.getLast? with
  | some (.other n, .surfix id sfx) => t.takes n id sfx
  | _ => 0

def Takers.taken (scan : Scan F) (t : Takers) (id : Nat) (p : Bytes) : Client → Int32
  | .gb => if (scan.gbField p).isSome then 5 else 0
  | .other n => t.takes n id p

theorem clientAnswer_taken (t : Takers) (id : Nat) (p : Bytes) (c : Client) (s : SfxState F) :
    clientAnswer scan t.answers (s.ask scan id p c).calls c p = t.taken scan id p c := by
  cases c with
  | gb => rfl
  | other n => simp [clientAnswer, SfxState.ask, Takers.answers, Takers.taken]

theorem taken_nonneg (t : Takers) (id : Nat) (p : Bytes) (c : Client) :
    0 ≤ t.taken scan id p c := by
  cases c with
  | gb =>
    by_cases given : (scan.gbField p).isSome
    · rw [Takers.taken, if_pos given]
      decide
    · rw [Takers.taken, if_neg given]
      decide
  | other n => exact t.nonneg n id p

/-! ### The answers to one field -/

/-- `ret` and `lastret` over the answers; `false` at a conflict. -/
def foldAnswers : List Int32 → Int32 → Int32 → Bool × Int32 × Int32
  | [], ret, lastret => (true, ret, lastret)
  | a :: rest, _, lastret =>
    if lastret > 0 then
      if a > 0 ∧ lastret ≠ a then (false, a, lastret) else foldAnswers rest a lastret
    else foldAnswers rest a a

/-- The field is refused. -/
def Refused (res : Bool × Int32 × Int32) : Prop :=
  res.1 = false ∨ (res.2.1 > 0 ∧ res.2.2 ≠ res.2.1)

/-- Two clients take the field with different lengths. -/
def Conflict (answers : List Int32) : Prop :=
  ∃ a ∈ answers, ∃ b ∈ answers, 0 < a ∧ 0 < b ∧ a ≠ b

theorem eq_zero_of_nonneg {a : Int32} (nonneg : 0 ≤ a) (none : ¬ 0 < a) : a = 0 :=
  Int32.le_antisymm (Int32.not_lt.mp none) nonneg

/-- Behind a client that took the field. -/
theorem foldAnswers_taken {k : Int32} (taken : 0 < k) :
    ∀ (answers : List Int32) (ret : Int32), (0 < ret → ret = k) →
      ((∃ a ∈ answers, 0 < a ∧ a ≠ k) → Refused (foldAnswers answers ret k)) ∧
        ((¬ ∃ a ∈ answers, 0 < a ∧ a ≠ k) →
          foldAnswers answers ret k = (true, answers.getLastD ret, k))
  | [], ret, _ => ⟨nofun, fun _ => rfl⟩
  | a :: rest, ret, _ => by
    rw [foldAnswers, if_pos taken, List.getLastD_cons]
    by_cases other : 0 < a ∧ a ≠ k
    · rw [if_pos ⟨other.1, other.2.symm⟩]
      exact ⟨fun _ => .inl rfl, fun none => absurd ⟨a, List.mem_cons_self, other⟩ none⟩
    · have same : 0 < a → a = k := fun positive => not_not.mp fun ne => other ⟨positive, ne⟩
      obtain ⟨refused, kept⟩ := foldAnswers_taken taken rest a same
      rw [if_neg fun differs => other ⟨differs.1, differs.2.symm⟩]
      refine ⟨?_, fun none => kept fun ⟨b, mem, differs⟩ => none ⟨b, .tail _ mem, differs⟩⟩
      rintro ⟨b, _ | ⟨_, mem⟩, differs⟩
      · exact absurd differs other
      · exact refused ⟨b, mem, differs⟩

/-- A field is refused at a conflict alone; else the last answer is kept. -/
theorem foldAnswers_zero :
    ∀ (answers : List Int32), (∀ a ∈ answers, 0 ≤ a) →
      (Conflict answers → Refused (foldAnswers answers 0 0)) ∧
        (¬ Conflict answers → (foldAnswers answers 0 0).2.1 = answers.getLastD 0 ∧
          ¬ Refused (foldAnswers answers 0 0))
  | [], _ => ⟨nofun, fun _ => ⟨rfl, fun refused => by
      rcases refused with ⟨⟨⟩⟩ | ⟨positive, -⟩
      exact absurd positive (by decide)⟩⟩
  | a :: rest, nonneg => by
    rw [foldAnswers, if_neg (by decide), List.getLastD_cons]
    by_cases taken : 0 < a
    · obtain ⟨refused, kept⟩ := foldAnswers_taken taken rest a fun _ => rfl
      constructor
      · rintro ⟨b, memB, c, memC, positiveB, positiveC, differ⟩
        apply refused
        -- one of the two differs from the first length
        by_cases same : b = a
        · have other : c ≠ a := fun eq => differ (same.trans eq.symm)
          exact ⟨c, (List.mem_cons.mp memC).resolve_left other, positiveC, other⟩
        · exact ⟨b, (List.mem_cons.mp memB).resolve_left same, positiveB, same⟩
      · intro none
        rw [kept fun ⟨b, mem, positive, differs⟩ =>
          none ⟨b, .tail _ mem, a, List.mem_cons_self, positive, taken, differs⟩]
        refine ⟨rfl, ?_⟩
        rintro (⟨⟨⟩⟩ | ⟨positive, differs⟩)
        dsimp only at positive differs
        -- the last answer is the length, or zero
        have mem := (List.mem_cons.mp List.getLastD_mem_cons).resolve_left differs.symm
        exact none ⟨_, .tail _ mem, a, List.mem_cons_self, positive, taken, differs.symm⟩
    · obtain rfl := eq_zero_of_nonneg (nonneg a List.mem_cons_self) taken
      obtain ⟨refused, kept⟩ := foldAnswers_zero rest fun b mem => nonneg b (.tail _ mem)
      constructor
      · rintro ⟨b, memB, c, memC, positiveB, positiveC, differ⟩
        have behind : ∀ d, 0 < d → d ∈ 0 :: rest → d ∈ rest := fun d positive mem =>
          (List.mem_cons.mp mem).resolve_left fun zero =>
            absurd (zero ▸ positive) (by decide)
        exact refused ⟨b, behind b positiveB memB, c, behind c positiveC memC, positiveB, positiveC,
          differ⟩
      · intro none
        exact kept fun ⟨b, memB, c, memC, rest⟩ => none ⟨b, .tail _ memB, c, .tail _ memC, rest⟩

/-! ### One turn -/

/-- What the way of the pointer depends on. -/
def SfxState.ctl (s : SfxState F) : Nat × List (Option Nat) := (s.mc, s.matchTbl)

/-- A place that is the clients' to read. -/
def Field (p : Bytes) : Prop :=
  p.headD 0 ≠ 0x40 ∧ p.headD 0 ≠ 0x42 ∧ p.headD 0 ≠ 0x4D ∧ p.headD 0 ≠ 0x49

def advance (ret : Int32) : Nat := if ret > 0 then ret.toInt.toNat else 1

theorem askClients_fold (scan : Scan F) (t : Takers) (id : Nat) (p : Bytes) (asked : List Client)
    (ret lastret : Int32) (s : SfxState F) :
    ∃ s', s'.ctl = s.ctl ∧ askClients scan t.answers id p asked ret lastret s =
      ((foldAnswers (asked.map (t.taken scan id p)) ret lastret).1,
        (foldAnswers (asked.map (t.taken scan id p)) ret lastret).2.1,
        (foldAnswers (asked.map (t.taken scan id p)) ret lastret).2.2, s') := by
  induction asked generalizing ret lastret s with
  | nil => exact ⟨s, rfl, rfl⟩
  | cons c rest ih =>
    have same : (s.ask scan id p c).ctl = s.ctl := rfl
    rw [List.map_cons, askClients, foldAnswers, clientAnswer_taken]
    split
    · split
      · exact ⟨_, same, rfl⟩
      · obtain ⟨s', ctl, eq⟩ := ih (t.taken scan id p c) lastret (s.ask scan id p c)
        exact ⟨s', ctl.trans same, eq⟩
    · obtain ⟨s', ctl, eq⟩ := ih (t.taken scan id p c) (t.taken scan id p c) (s.ask scan id p c)
      exact ⟨s', ctl.trans same, eq⟩

variable (t : Takers) (sig : Nat)

/-- The clients' answers to the field at `p` of the signal at place `sig`. -/
def Takers.field (scan : Scan F) (clients : List Client) (p : Bytes) : List Int32 :=
  clients.map (t.taken scan (sig + 1) p)

theorem field_nonneg (scan : Scan F) (clients : List Client) (p : Bytes) :
    ∀ a ∈ t.field sig scan clients p, 0 ≤ a := by
  intro a mem
  obtain ⟨c, -, rfl⟩ := List.mem_map.mp mem
  exact taken_nonneg t (sig + 1) p c

/-- At a field the turn is refused at a conflict, and goes on by the last answer elsewhere. -/
theorem sfxStep_field (scan : Scan F) {clients : List Client}
    (room : clients.length ≤ dbcMaxCallback) {p : Bytes} (field : Field p) (s : SfxState F) :
    (sfxStep scan clients t.answers sig p s).2.ctl = s.ctl ∧
      (Conflict (t.field sig scan clients p) →
        (sfxStep scan clients t.answers sig p s).1 = none) ∧
      (¬ Conflict (t.field sig scan clients p) → (sfxStep scan clients t.answers sig p s).1 =
        some (p.drop (advance ((t.field sig scan clients p).getLastD 0)))) := by
  obtain ⟨s', ctl, eq⟩ := askClients_fold scan t (sig + 1) p clients 0 0 s
  obtain ⟨refused, kept⟩ := foldAnswers_zero _ (field_nonneg t sig scan clients p)
  rw [Takers.field] at refused kept ⊢
  rw [sfxStep, if_neg field.1, if_neg field.2.1, if_neg field.2.2.1, if_neg field.2.2.2,
    List.take_of_length_le room, eq]
  dsimp only
  refine ⟨?_, fun conflict => ?_, fun none => ?_⟩
  · split <;> exact ctl
  · exact congrArg Prod.fst (if_pos (refused conflict))
  · obtain ⟨last, accepted⟩ := kept none
    rw [← last]
    exact congrArg Prod.fst (if_neg accepted)

/-- Elsewhere the clients are not asked. -/
theorem sfxStep_keyword {p : Bytes} (keyword : ¬ Field p) (clients others : List Client)
    (answers : Answers) {s s' : SfxState F} (same : s.ctl = s'.ctl) :
    (sfxStep scan clients answers sig p s).1 = (sfxStep scan others answers sig p s').1 ∧
      (sfxStep scan clients answers sig p s).2.ctl =
        (sfxStep scan others answers sig p s').2.ctl := by
  obtain ⟨sig₁, mc, matchTbl, calls₁⟩ := s
  obtain ⟨sig₂, mc₂, matchTbl₂, calls₂⟩ := s'
  obtain ⟨rfl, rfl⟩ := Prod.mk.inj same
  unfold sfxStep
  dsimp only
  split
  · -- the port
    split
    · exact ⟨rfl, rfl⟩
    · split <;> exact ⟨rfl, rfl⟩
  · split
    · exact ⟨rfl, rfl⟩
    · split
      · -- a condition
        split
        · exact ⟨rfl, rfl⟩
        · split
          · exact ⟨rfl, rfl⟩
          · split <;> exact ⟨rfl, rfl⟩
      · split
        · -- the index
          split
          · exact ⟨rfl, rfl⟩
          · split <;> exact ⟨rfl, rfl⟩
        next port bit condition index => exact absurd ⟨port, bit, condition, index⟩ keyword

/-! ### The way of the pointer -/

/-- Where the pointer is turn after turn; `who` are the clients that are asked at a place. -/
def sfxPath (scan : Scan F) (who : Bytes → List Client) (answers : Answers) (sig : Nat) :
    Nat → Bytes → SfxState F → List Bytes
  | 0, p, _ => [p]
  | n + 1, p, s =>
    if p.headD 0 = 0 then [p]
    else
      match sfxStep scan (who p) answers sig p s with
      | (none, _) => [p]
      | (some next, s) => p :: sfxPath scan who answers sig n next s

theorem sfxPath_first (scan : Scan F) (who : Bytes → List Client) (answers : Answers) (sig n : Nat)
    (p : Bytes) (s : SfxState F) : ∃ rest, sfxPath scan who answers sig n p s = p :: rest := by
  cases n with
  | zero => exact ⟨[], rfl⟩
  | succ n =>
    unfold sfxPath
    split
    · exact ⟨[], rfl⟩
    · split <;> exact ⟨_, rfl⟩

theorem sfxPath_turn {who : Bytes → List Client} {answers : Answers} {sig n : Nat} {p next : Bytes}
    {s s' : SfxState F} (going : p.headD 0 ≠ 0)
    (turn : sfxStep scan (who p) answers sig p s = (some next, s')) :
    sfxPath scan who answers sig (n + 1) p s = p :: sfxPath scan who answers sig n next s' := by
  rw [sfxPath, if_neg going, turn]

/-- The name is accepted if the pointer ends at the zero. -/
theorem sfxLoop_path (clients : List Client) (answers : Answers) (n : Nat) (p : Bytes)
    (s : SfxState F) : (sfxLoop scan clients answers sig n p s).1 =
      decide (((sfxPath scan (fun _ => clients) answers sig n p s).getLastD []).headD 0 = 0) := by
  induction n generalizing p s with
  | zero => rfl
  | succ n ih =>
    unfold sfxLoop sfxPath
    split
    next ends => exact (decide_eq_true ends).symm
    next going =>
      cases turn : sfxStep scan clients answers sig p s with
      | mk next s' =>
      cases next with
      | none => exact (decide_eq_false going).symm
      | some q =>
        obtain ⟨rest, path⟩ := sfxPath_first scan (fun _ => clients) answers sig n q s'
        dsimp only
        rw [ih q s', List.getLastD_cons, path]
        rfl

/-- The clients that take the field. -/
def Takers.agreed (scan : Scan F) (clients : List Client) (p : Bytes) : List Client :=
  clients.filter fun c => t.taken scan (sig + 1) p c ≠ 0

/-- A field that clients take with one length, two characters or more, and another leaves alone.
Behind its first character there is the zero at least. -/
structure Mixed (scan : Scan F) (clients : List Client) (p : Bytes) : Prop where
  going : p.headD 0 ≠ 0
  field : Field p
  behind : 1 < p.length
  agree : ¬ Conflict (t.field sig scan clients p)
  left : ∃ c ∈ clients, t.taken scan (sig + 1) p c = 0
  taken : ∃ c ∈ clients, 1 < t.taken scan (sig + 1) p c

theorem advance_pos (ret : Int32) : 1 ≤ advance ret := by
  unfold advance
  split
  next positive =>
    have := Int32.lt_iff_toInt_lt.mp positive
    rw [Int32.toInt_zero] at this
    omega
  · exact Nat.le_refl 1

theorem advance_more {a : Int32} (more : 1 < a) : 2 ≤ advance a := by
  have above := Int32.lt_iff_toInt_lt.mp more
  have one : (1 : Int32).toInt = 1 := rfl
  have positive : a > 0 := by
    rw [gt_iff_lt, Int32.lt_iff_toInt_lt, Int32.toInt_zero]
    omega
  rw [advance, if_pos positive]
  omega

theorem eq_one {a : Int32} (positive : 0 < a) (most : ¬ 1 < a) : a = 1 := by
  rw [Int32.lt_iff_toInt_lt] at positive most
  rw [← Int32.toInt_inj]
  rw [Int32.toInt_zero] at positive
  have one : (1 : Int32).toInt = 1 := rfl
  omega

theorem last_mem {l : List Int32} (nonempty : l ≠ []) : l.getLastD 0 ∈ l := by
  obtain ⟨a, rest, rfl⟩ := List.exists_cons_of_ne_nil nonempty
  rw [List.getLastD_cons]
  exact List.getLastD_mem_cons

theorem conflict_mono {l l' : List Int32} (sub : ∀ a, 0 < a → a ∈ l → a ∈ l') :
    Conflict l → Conflict l'
  | ⟨a, memA, b, memB, posA, posB, differ⟩ =>
    ⟨a, sub a posA memA, b, sub b posB memB, posA, posB, differ⟩

variable {t : Takers} {sig : Nat} {clients order : List Client}

theorem agreed_field {p : Bytes} {a : Int32} (positive : 0 < a) :
    a ∈ t.field sig scan (t.agreed sig scan clients p) p ↔ a ∈ t.field sig scan clients p := by
  have nonzero : a ≠ 0 := fun zero => absurd (zero ▸ positive) (by decide)
  simp only [Takers.field, Takers.agreed, List.mem_map, List.mem_filter, decide_eq_true_eq]
  constructor
  · rintro ⟨c, ⟨mem, -⟩, rfl⟩
    exact ⟨c, mem, rfl⟩
  · rintro ⟨c, mem, rfl⟩
    exact ⟨c, ⟨mem, nonzero⟩, rfl⟩

theorem perm_field (perm : order.Perm clients) (p : Bytes) (a : Int32) :
    a ∈ t.field sig scan order p ↔ a ∈ t.field sig scan clients p :=
  (perm.map _).mem_iff

/-- Without a conflict two lengths are the same. -/
theorem field_agrees {p : Bytes} (agree : ¬ Conflict (t.field sig scan clients p)) {a b : Int32}
    (memA : a ∈ t.field sig scan clients p) (memB : b ∈ t.field sig scan clients p) (nonzero : a ≠ 0)
    (positive : 0 < b) : a = b := by
  have taken : 0 < a := not_not.mp fun none =>
    nonzero (eq_zero_of_nonneg (field_nonneg t sig scan clients p a memA) none)
  exact not_not.mp fun differ => agree ⟨a, memA, b, memB, taken, positive, differ⟩

/-- The last one of those that take a field gives the agreed length. -/
theorem agreed_last {p : Bytes} (agree : ¬ Conflict (t.field sig scan clients p)) {d : Client}
    (mem : d ∈ clients) (taken : 0 < t.taken scan (sig + 1) p d) :
    (t.field sig scan (t.agreed sig scan clients p) p).getLastD 0 =
      t.taken scan (sig + 1) p d := by
  have memK : t.taken scan (sig + 1) p d ∈ t.field sig scan clients p := List.mem_map_of_mem mem
  have last := last_mem (List.ne_nil_of_mem ((agreed_field taken).mpr memK))
  obtain ⟨c, inside, eq⟩ := List.mem_map.mp last
  obtain ⟨memC, nonzero⟩ := List.mem_filter.mp inside
  rw [← eq]
  exact field_agrees agree (List.mem_map_of_mem memC) memK (by simpa using nonzero) taken

/-- Where nobody takes a field, the last answer is zero. -/
theorem last_zero {p : Bytes} (leave : ¬ ∃ d ∈ clients, 0 < t.taken scan (sig + 1) p d)
    {l : List Int32} (sub : ∀ a ∈ l, a ∈ t.field sig scan clients p) : l.getLastD 0 = 0 := by
  rcases List.mem_cons.mp (List.getLastD_mem_cons (l := l) (a := 0)) with none | mem
  · exact none
  · obtain ⟨c, memC, eq⟩ := List.mem_map.mp (sub _ mem)
    have nonneg := field_nonneg t sig scan clients p _ (sub _ mem)
    exact eq_zero_of_nonneg nonneg fun taken => leave ⟨c, memC, eq ▸ taken⟩

/-- Where the field is not a mixed one, the last answer is as good as the agreed length. -/
theorem drop_last {p : Bytes} (perm : order.Perm clients) (going : p.headD 0 ≠ 0)
    (field : Field p) (agree : ¬ Conflict (t.field sig scan clients p))
    (pure : ¬ Mixed t sig scan clients p) :
    p.drop (advance ((t.field sig scan order p).getLastD 0)) =
      p.drop (advance ((t.field sig scan (t.agreed sig scan clients p) p).getLastD 0)) := by
  by_cases takes : ∃ d ∈ clients, 0 < t.taken scan (sig + 1) p d
  · obtain ⟨d, memD, taken⟩ := takes
    have memK : t.taken scan (sig + 1) p d ∈ t.field sig scan clients p :=
      List.mem_map_of_mem memD
    have last := (perm_field perm p _).mp
      (last_mem (List.ne_nil_of_mem ((perm_field perm p _).mpr memK)))
    rw [agreed_last agree memD taken]
    by_cases zero : (t.field sig scan order p).getLastD 0 = 0
    · -- the client asked last leaves it alone, so it is taken with one character at most
      rw [zero] at last ⊢
      obtain ⟨c, memC, left⟩ := List.mem_map.mp last
      by_cases more : 1 < t.taken scan (sig + 1) p d
      · have short : p.length ≤ 1 := Nat.not_lt.mp fun behind =>
          pure ⟨going, field, behind, agree, ⟨c, memC, left⟩, ⟨d, memD, more⟩⟩
        rw [List.drop_eq_nil_of_le (Nat.le_trans short (advance_pos _)),
          List.drop_eq_nil_of_le (Nat.le_trans short (advance_pos _))]
      · rw [eq_one taken more]
        rfl
    · rw [field_agrees agree last memK zero taken]
  · have sub : ∀ a ∈ t.field sig scan (t.agreed sig scan clients p) p,
        a ∈ t.field sig scan clients p := by
      intro a mem
      obtain ⟨c, inside, rfl⟩ := List.mem_map.mp mem
      exact List.mem_map_of_mem (List.mem_filter.mp inside).1
    rw [last_zero takes fun a => (perm_field perm p a).mp, last_zero takes sub]

/-! ### Every order -/

theorem drop_shorter {p : Bytes} (going : p.headD 0 ≠ 0) {k : Nat} (positive : 1 ≤ k) :
    (p.drop k).length < p.length := by
  cases p with
  | nil => exact absurd rfl going
  | cons b rest =>
    rw [List.length_drop, List.length_cons]
    omega

/-- Where a turn goes on: behind what it has read. -/
theorem sfxStep_cases {answers : Answers} {p next : Bytes} {s : SfxState F}
    (turn : (sfxStep scan clients answers sig p s).1 = some next) :
    (p.headD 0 = 0x40 ∧ (scan.sfxPort p).isSome ∧ next = p.drop 2) ∨
      (p.headD 0 = 0x42 ∧ next = p.drop 1) ∨
      (p.headD 0 = 0x4D ∧ (scan.sfxMatch p).isSome ∧
        next = (((p.drop 1).dropWhile (· ≠ 0x49)).drop 1).dropWhile isDigit) ∨
      (p.headD 0 = 0x49 ∧ next = (p.drop 1).dropWhile isDigit) ∨
      (Field p ∧ ∃ ret, next = p.drop (advance ret)) := by
  unfold sfxStep at turn
  split at turn
  next port =>
    left
    split at turn
    · cases turn
    next read =>
      split at turn
      · cases turn
      · cases turn
        exact ⟨port, Option.isSome_of_eq_some read, rfl⟩
  next port =>
    right
    split at turn
    next bit =>
      left
      cases turn
      exact ⟨bit, rfl⟩
    next bit =>
      right
      split at turn
      next condition =>
        left
        split at turn
        · cases turn
        · split at turn
          · cases turn
          next read =>
            split at turn
            · cases turn
            · cases turn
              exact ⟨condition, Option.isSome_of_eq_some read, rfl⟩
      next condition =>
        right
        split at turn
        next index =>
          left
          split at turn
          · cases turn
          · split at turn
            · cases turn
            · cases turn
              exact ⟨index, rfl⟩
        next index =>
          right
          dsimp only at turn
          split at turn
          · cases turn
          · cases turn
            exact ⟨⟨port, bit, condition, index⟩, _, rfl⟩

/-- A turn goes on behind the place. -/
theorem sfxStep_shorter {answers : Answers} {p next : Bytes} {s : SfxState F}
    (going : p.headD 0 ≠ 0) (turn : (sfxStep scan clients answers sig p s).1 = some next) :
    next.length < p.length := by
  have first := drop_shorter going (Nat.le_refl 1)
  obtain ⟨-, -, rfl⟩ | ⟨-, rfl⟩ | ⟨-, -, rfl⟩ | ⟨-, rfl⟩ | ⟨-, ret, rfl⟩ := sfxStep_cases turn
  · exact drop_shorter going (by decide)
  · exact first
  · refine Nat.lt_of_le_of_lt (List.dropWhile_sublist _).length_le ?_
    rw [List.length_drop]
    have value := ((p.drop 1).dropWhile_sublist (· ≠ 0x49)).length_le
    omega
  · exact Nat.lt_of_le_of_lt (List.dropWhile_sublist _).length_le first
  · exact drop_shorter going (advance_pos _)

/-- A turn that meets no mixed field is as if only those were asked that take the field. -/
theorem sfxStep_agreed (room : clients.length ≤ dbcMaxCallback) (perm : order.Perm clients)
    {p : Bytes} (going : p.headD 0 ≠ 0) (pure : ¬ Mixed t sig scan clients p) {s s' : SfxState F}
    (same : s.ctl = s'.ctl) :
    (sfxStep scan order t.answers sig p s).1 =
        (sfxStep scan (t.agreed sig scan clients p) t.answers sig p s').1 ∧
      (sfxStep scan order t.answers sig p s).2.ctl =
        (sfxStep scan (t.agreed sig scan clients p) t.answers sig p s').2.ctl := by
  by_cases field : Field p
  · obtain ⟨ctl, refused, on⟩ := sfxStep_field t sig scan (perm.length_eq ▸ room) field s
    have fewer : (t.agreed sig scan clients p).length ≤ dbcMaxCallback :=
      Nat.le_trans (List.length_filter_le _ _) room
    obtain ⟨ctl', refused', on'⟩ := sfxStep_field t sig scan fewer field s'
    refine ⟨?_, ctl.trans (same.trans ctl'.symm)⟩
    by_cases agree : Conflict (t.field sig scan clients p)
    · rw [refused (conflict_mono (fun a _ mem => (perm_field perm p a).mpr mem) agree),
        refused' (conflict_mono (fun a pos mem => (agreed_field pos).mpr mem) agree)]
    · rw [on (mt (conflict_mono fun a _ mem => (perm_field perm p a).mp mem) agree),
        on' (mt (conflict_mono fun a pos mem => (agreed_field pos).mp mem) agree)]
      exact congrArg some (drop_last perm going field agree pure)
  · exact sfxStep_keyword sig field order _ t.answers same

/-- Without mixed fields every order goes the way of the agreed reading. -/
theorem sfxPath_agreed (room : clients.length ≤ dbcMaxCallback) (perm : order.Perm clients)
    (n : Nat) (p : Bytes) {s s' : SfxState F} (same : s.ctl = s'.ctl)
    (pure : ∀ q ∈ sfxPath scan (t.agreed sig scan clients) t.answers sig n p s',
      ¬ Mixed t sig scan clients q) :
    sfxPath scan (fun _ => order) t.answers sig n p s =
      sfxPath scan (t.agreed sig scan clients) t.answers sig n p s' := by
  induction n generalizing p s s' with
  | zero => rfl
  | succ n ih =>
    unfold sfxPath at pure ⊢
    split
    · rfl
    next going =>
      rw [if_neg going] at pure
      have here : p ∈ (match sfxStep scan (t.agreed sig scan clients p) t.answers sig p s' with
          | (none, _) => [p]
          | (some next, s) =>
            p :: sfxPath scan (t.agreed sig scan clients) t.answers sig n next s) := by
        split <;> exact List.mem_cons_self
      obtain ⟨next, ctl⟩ := sfxStep_agreed room perm going (pure p here) same
      cases turn : sfxStep scan order t.answers sig p s with
      | mk q s₁ =>
      cases turn' : sfxStep scan (t.agreed sig scan clients p) t.answers sig p s' with
      | mk q' s₂ =>
      rw [turn, turn'] at next ctl
      rw [turn'] at pure
      dsimp only at next ctl
      subst next
      cases q with
      | none => rfl
      | some q => exact congrArg (p :: ·) (ih q ctl fun r mem => pure r (.tail _ mem))

/-- The client that is asked last decides where a field is read on. -/
theorem sfxPath_last (room : clients.length ≤ dbcMaxCallback) {p : Bytes} (going : p.headD 0 ≠ 0)
    (field : Field p) (agree : ¬ Conflict (t.field sig scan clients p)) {c : Client}
    (mem : c ∈ clients) : ∃ order, order.Perm clients ∧ ∀ n (s : SfxState F), ∃ rest,
      sfxPath scan (fun _ => order) t.answers sig (n + 1) p s =
        p :: p.drop (advance (t.taken scan (sig + 1) p c)) :: rest := by
  have perm : (clients.erase c ++ [c]).Perm clients :=
    List.perm_append_comm.trans (List.perm_cons_erase mem).symm
  have asked : (t.field sig scan (clients.erase c ++ [c]) p).getLastD 0 =
      t.taken scan (sig + 1) p c := by
    rw [Takers.field, List.map_append]
    exact List.getLastD_concat
  refine ⟨_, perm, fun n s => ?_⟩
  obtain ⟨-, -, on⟩ := sfxStep_field t sig scan (perm.length_eq ▸ room) field s
  have next := on (mt (conflict_mono fun a _ mem => (perm_field perm p a).mp mem) agree)
  rw [asked] at next
  cases turn : sfxStep scan (clients.erase c ++ [c]) t.answers sig p s with
  | mk q s₁ =>
  rw [turn] at next
  obtain rfl : q = _ := next
  obtain ⟨rest, path⟩ := sfxPath_first scan (fun _ => clients.erase c ++ [c]) t.answers sig n
    (p.drop (advance (t.taken scan (sig + 1) p c))) s₁
  exact ⟨rest, (sfxPath_turn going turn).trans (congrArg (p :: ·) path)⟩

/-- A mixed field is read on in two ways. -/
theorem sfxPath_here (room : clients.length ≤ dbcMaxCallback) {n : Nat} {p : Bytes}
    (mixed : Mixed t sig scan clients p) :
    ∃ order order', order.Perm clients ∧ order'.Perm clients ∧ ∀ s s' : SfxState F,
      sfxPath scan (fun _ => order) t.answers sig (n + 1) p s ≠
        sfxPath scan (fun _ => order') t.answers sig (n + 1) p s' := by
  obtain ⟨c, memC, left⟩ := mixed.left
  obtain ⟨d, memD, taken⟩ := mixed.taken
  obtain ⟨order, perm, pathC⟩ := sfxPath_last (F := F) room mixed.going mixed.field mixed.agree memC
  obtain ⟨order', perm', pathD⟩ :=
    sfxPath_last (F := F) room mixed.going mixed.field mixed.agree memD
  refine ⟨order, order', perm, perm', fun s s' same => ?_⟩
  obtain ⟨rest, pathC⟩ := pathC n s
  obtain ⟨rest', pathD⟩ := pathD n s'
  rw [pathC, pathD, left] at same
  have lengths := congrArg List.length (List.cons.inj (List.cons.inj same).2).1
  rw [List.length_drop, List.length_drop] at lengths
  have one : advance 0 = 1 := rfl
  have more := advance_more taken
  have behind := mixed.behind
  omega

/-- Past a field that is not mixed every order goes on where the agreed reading does. -/
theorem sfxPath_past (room : clients.length ≤ dbcMaxCallback) (perm : order.Perm clients)
    {p next : Bytes} (going : p.headD 0 ≠ 0) (pure : ¬ Mixed t sig scan clients p)
    {s s' s₀ : SfxState F} (same : s₀.ctl = s.ctl)
    (turn : sfxStep scan (t.agreed sig scan clients p) t.answers sig p s = (some next, s'))
    (n : Nat) : ∃ s₁, s₁.ctl = s'.ctl ∧ sfxPath scan (fun _ => order) t.answers sig (n + 1) p s₀ =
      p :: sfxPath scan (fun _ => order) t.answers sig n next s₁ := by
  obtain ⟨first, ctl⟩ := sfxStep_agreed room perm going pure same
  have next_eq := congrArg Prod.fst turn
  have ctl_eq := congrArg (SfxState.ctl ∘ Prod.snd) turn
  exact ⟨_, ctl.trans ctl_eq, sfxPath_turn going (Prod.ext (first.trans next_eq) rfl)⟩

/-- The first mixed field that the agreed reading reaches makes two orders differ. -/
theorem sfxPath_mixed (room : clients.length ≤ dbcMaxCallback) (n : Nat) (p : Bytes)
    (s : SfxState F) (fuel : p.length ≤ n)
    (mixed : ∃ q ∈ sfxPath scan (t.agreed sig scan clients) t.answers sig n p s,
      Mixed t sig scan clients q) :
    ∃ order order', order.Perm clients ∧ order'.Perm clients ∧
      ∀ s₁ s₂ : SfxState F, s₁.ctl = s.ctl → s₂.ctl = s.ctl →
        sfxPath scan (fun _ => order) t.answers sig n p s₁ ≠
          sfxPath scan (fun _ => order') t.answers sig n p s₂ := by
  obtain ⟨q, mem, mixed⟩ := mixed
  induction n generalizing p s with
  | zero =>
    obtain rfl := List.mem_singleton.mp mem
    have behind := mixed.behind
    omega
  | succ n ih =>
    by_cases here : Mixed t sig scan clients p
    · obtain ⟨order, order', perm, perm', differ⟩ := sfxPath_here room here
      exact ⟨order, order', perm, perm', fun s₁ s₂ _ _ => differ s₁ s₂⟩
    · have elsewhere : q ≠ p := fun same => here (same ▸ mixed)
      unfold sfxPath at mem
      split at mem
      · exact absurd (List.mem_singleton.mp mem) elsewhere
      next going =>
        split at mem
        · exact absurd (List.mem_singleton.mp mem) elsewhere
        next next s' turn =>
          have shorter := sfxStep_shorter going (congrArg Prod.fst turn)
          obtain ⟨order, order', perm, perm', differ⟩ := ih next s' (by omega)
            ((List.mem_cons.mp mem).resolve_left elsewhere)
          refine ⟨order, order', perm, perm', fun s₁ s₂ same₁ same₂ => ?_⟩
          obtain ⟨s₃, ctl₃, path₁⟩ := sfxPath_past room perm going here same₁ turn n
          obtain ⟨s₄, ctl₄, path₂⟩ := sfxPath_past room perm' going here same₂ turn n
          rw [path₁, path₂]
          exact fun same => differ s₃ s₄ ctl₃ ctl₄ (List.cons.inj same).2

/-! ### Names -/

/-- The way of the pointer over the suffix of a name. -/
def suffixPath (scan : Scan F) (who : Bytes → List Client) (answers : Answers) (sig : Nat)
    (stack : Bytes) (s : SfxState F) : Option Bytes → List Bytes
  | none => []
  | some sfx =>
    sfxPath scan who answers sig (sfx ++ 0 :: stack).length (sfx ++ 0 :: stack)
      { s with sig := { s.sig with suffix := sfx.take (dbcSuffixLen - 1) } }

theorem dbcParseSigSuffix_path {answers : Answers} {sfx : Option Bytes} {stack : Bytes}
    {s : SfxState F} (same : suffixPath scan (fun _ => order) answers sig stack s sfx =
      suffixPath scan (fun _ => clients) answers sig stack s sfx) :
    (dbcParseSigSuffix scan order answers sig sfx stack s).1 =
      (dbcParseSigSuffix scan clients answers sig sfx stack s).1 := by
  cases sfx with
  | none => rfl
  | some sfx =>
    unfold dbcParseSigSuffix
    dsimp only
    rw [sfxLoop_path, sfxLoop_path]
    exact congrArg (fun path => decide ((path.getLastD []).headD 0 = 0)) same

/-- Every name is accepted or refused, and its suffix read on, in the same way whatever the order
of the clients, exactly if the reading in which those that leave a field alone have no part in it
comes to no field that another one takes with two characters or more. In every order a field is
refused at a conflict only. -/
theorem suffix_order_iff (scan : Scan F) (t : Takers) (sig : Nat) (stack : Bytes)
    (s : SfxState F) (clients : List Client) (room : clients.length ≤ dbcMaxCallback)
    (name : Bytes) :
    ((∀ order : List Client, order.Perm clients →
        (dbcParseSigSuffix scan order t.answers sig (dbcGetSigSuffix name).2 stack s).1 =
            (dbcParseSigSuffix scan clients t.answers sig (dbcGetSigSuffix name).2 stack s).1 ∧
          suffixPath scan (fun _ => order) t.answers sig stack s (dbcGetSigSuffix name).2 =
            suffixPath scan (fun _ => clients) t.answers sig stack s (dbcGetSigSuffix name).2) ∧
      ∀ order : List Client, order.Perm clients → ∀ p (s : SfxState F), Field p →
        (sfxStep scan order t.answers sig p s).1 = none →
          Conflict (t.field sig scan order p)) ↔
    ∀ p ∈ suffixPath scan (t.agreed sig scan clients) t.answers sig stack s
      (dbcGetSigSuffix name).2, ¬ Mixed t sig scan clients p := by
  have refused : ∀ order : List Client, order.Perm clients → ∀ p (s : SfxState F), Field p →
      (sfxStep scan order t.answers sig p s).1 = none → Conflict (t.field sig scan order p) := by
    intro order perm p s field turn
    obtain ⟨-, -, on⟩ := sfxStep_field t sig scan (perm.length_eq ▸ room) field s
    by_contra agree
    rw [on agree] at turn
    cases turn
  cases (dbcGetSigSuffix name).2 with
  | none => exact ⟨fun _ => nofun, fun _ => ⟨fun _ _ => ⟨rfl, rfl⟩, refused⟩⟩
  | some sfx =>
    constructor
    · rintro ⟨same, -⟩ p mem mixed
      obtain ⟨order, order', perm, perm', differ⟩ := sfxPath_mixed room _ _ _ (Nat.le_refl _)
        ⟨p, mem, mixed⟩
      exact differ _ _ rfl rfl ((same order perm).2.trans (same order' perm').2.symm)
    · intro pure
      refine ⟨fun order perm => ?_, refused⟩
      have path : suffixPath scan (fun _ => order) t.answers sig stack s (some sfx) =
          suffixPath scan (fun _ => clients) t.answers sig stack s (some sfx) :=
        (sfxPath_agreed room perm _ _ rfl pure).trans
          (sfxPath_agreed room (.refl clients) _ _ rfl pure).symm
      exact ⟨dbcParseSigSuffix_path path, path⟩

/-- What the formats read in the suffix `G10I0`. -/
def scanG10 : Scan Unit where
  zero := ()
  md5 _ := []
  version _ := false
  getKwd _ := none
  getMsg _ := none
  getSig _ := none
  hsBaudrate _ := none
  msBaudrate _ := none
  lsBaudrate _ := none
  baudrate _ := none
  getDef _ := none
  sfxPort _ := none
  sfxMatch _ := none
  sfxIndex p := if p.take 2 = [0x49, 0x30] then some 0 else none
  gbField p := if p.take 3 = [0x47, 0x31, 0x30] then some (1, 0) else none

def SfxState.fresh : SfxState Unit := ⟨.cleared (), 0, List.replicate 64 none, []⟩

/-- Another client that takes the fields of the GB32960 layer with the same length. -/
def takesToo : Takers where
  takes _ _ p := if p.take 3 = [0x47, 0x31, 0x30] then 5 else 0
  nonneg _ _ p := by
    by_cases takes : p.take 3 = [0x47, 0x31, 0x30]
    · rw [if_pos takes]
      decide
    · rw [if_neg takes]
      decide

def takesNothing : Takers := ⟨fun _ _ _ => 0, fun _ _ _ => Int32.le_refl 0⟩

theorem suffix_order_agree :
    suffixPath scanG10 (fun _ => [.other 0, .gb]) takesToo.answers 0 [] .fresh
        (dbcGetSigSuffix [0x76, 0x5F, 0x47, 0x31, 0x30, 0x49, 0x30]).2 =
      suffixPath scanG10 (fun _ => [.gb, .other 0]) takesToo.answers 0 [] .fresh
        (dbcGetSigSuffix [0x76, 0x5F, 0x47, 0x31, 0x30, 0x49, 0x30]).2 := by
  have pure : ∀ p ∈ suffixPath scanG10 (takesToo.agreed 0 scanG10 [.gb, .other 0]) takesToo.answers
      0 [] .fresh (dbcGetSigSuffix [0x76, 0x5F, 0x47, 0x31, 0x30, 0x49, 0x30]).2,
      ¬ Mixed takesToo 0 scanG10 [.gb, .other 0] p := by
    have path : suffixPath scanG10 (takesToo.agreed 0 scanG10 [.gb, .other 0]) takesToo.answers
        0 [] .fresh (dbcGetSigSuffix [0x76, 0x5F, 0x47, 0x31, 0x30, 0x49, 0x30]).2 =
        [[0x47, 0x31, 0x30, 0x49, 0x30, 0], [0]] := by decide
    rw [path]
    rintro p (_ | ⟨_, _ | ⟨_, ⟨⟩⟩⟩) mixed
    · exact absurd mixed.left (by decide)
    · exact mixed.going rfl
  exact ((suffix_order_iff scanG10 takesToo 0 [] .fresh [.gb, .other 0] (by decide)
    [0x76, 0x5F, 0x47, 0x31, 0x30, 0x49, 0x30]).mpr pure).1 [.other 0, .gb] (.swap ..) |>.2

/-- `v_G10I0` is accepted if the GB32960 layer is asked last, and refused if a client that takes
nothing is. -/
theorem suffix_order_differs :
    [Client.gb, .other 0].Perm [.other 0, .gb] ∧
      (dbcParseSigSuffix scanG10 [.other 0, .gb] takesNothing.answers 0
        (dbcGetSigSuffix [0x76, 0x5F, 0x47, 0x31, 0x30, 0x49, 0x30]).2 [] .fresh).1 = true ∧
      (dbcParseSigSuffix scanG10 [.gb, .other 0] takesNothing.answers 0
        (dbcGetSigSuffix [0x76, 0x5F, 0x47, 0x31, 0x30, 0x49, 0x30]).2 [] .fresh).1 = false := by
  refine ⟨.swap .., ?_, ?_⟩ <;> decide

end Can
