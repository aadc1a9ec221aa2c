import Mathlib.Algebra.GroupWithZero.Nat
import Mathlib.Algebra.Order.BigOperators.Group.List

/-!
# Records of different size in a ring

Records are stored one behind the other. The writer goes back to the start where the largest
record would not fit any more, and the reader follows it there; nothing tells the writer how far
the reader is. A queue holds as long as what waits is no more than the ring without the room for
one record.
-/

namespace RecordRing

/-- Memory that records are stored in: a record is loaded from where it was stored, as long as no
other one was stored over it. -/
structure Layout (Mem R : Type) where
  cap : Nat
  largest : Nat
  span : R → Nat
  load : Mem → Nat → R
  store : Mem → Nat → R → Mem
  Fits : R → Prop
  largest_le : largest ≤ cap
  span_pos : ∀ r, 0 < span r
  span_le : ∀ r, Fits r → span r ≤ largest
  load_store : ∀ m a r, Fits r → load (store m a r) a = r
  load_apart : ∀ m a r b q, Fits r → Fits q → load m b = q →
    b + span q ≤ a ∨ a + span r ≤ b → load (store m a r) b = q

structure State (Mem : Type) where
  mem : Mem
  get : Nat
  put : Nat

variable {Mem R : Type} (L : Layout Mem R)

/-! ### Reading and writing -/

/-- The reader, for at most `n` rounds; `none` where it is not done by then or leaves the ring. -/
def drain : Nat → State Mem → Option (State Mem × List R)
  | 0, s => if s.get = s.put then some (s, []) else none
  | n + 1, s =>
    if s.get = s.put then some (s, [])
    else if L.cap < s.get then none
    else if L.cap - s.get < L.largest then drain n { s with get := 0 }
    else
      let r := L.load s.mem s.get
      (drain n { s with get := s.get + L.span r }).map fun done => (done.1, r :: done.2)

/-- The reader with rounds enough for a ring of records. -/
def flush (s : State Mem) : Option (State Mem × List R) := drain L (L.cap + 1) s

/-- The writer goes back to the start; where the reader is at the first record there, all is
read before. -/
def wrap (s : State Mem) : Option (State Mem × List R) :=
  if L.cap < s.put then none
  else if L.cap - s.put < L.largest then
    (if s.get < L.largest then flush L s else some (s, [])).map fun done =>
      ({ done.1 with put := 0 }, done.2)
  else some (s, [])

def push (s : State Mem) (r : R) : Option (State Mem × List R) :=
  (wrap L s).map fun done =>
    ({ done.1 with
        mem := L.store done.1.mem done.1.put r
        put := done.1.put + L.span r }, done.2)

def pushAll : State Mem → List R → Option (State Mem × List R)
  | s, [] => some (s, [])
  | s, r :: rs => do
    let (s, now) ← push L s r
    let (s, later) ← pushAll s rs
    some (s, now ++ later)

/-- Records are pushed, and the reader runs or does not. -/
def call (s : State Mem) (c : List R × Bool) : Option (State Mem × List R) := do
  let (s, now) ← pushAll L s c.1
  if c.2 then do
    let (s, later) ← flush L s
    some (s, now ++ later)
  else some (s, now)

def run : State Mem → List (List R × Bool) → Option (State Mem × List R)
  | s, [] => some (s, [])
  | s, c :: cs => do
    let (s, now) ← call L s c
    let (s, later) ← run s cs
    some (s, now ++ later)

/-! ### What waits -/

def total (rs : List R) : Nat := (rs.map L.span).sum

/-- The records from `a` on end at `b`. -/
def Straight (m : Mem) : Nat → List R → Nat → Prop
  | a, [], b => a = b
  | a, r :: rs, b =>
    a + L.largest ≤ L.cap ∧ L.load m a = r ∧ L.Fits r ∧ Straight m (a + L.span r) rs b

/-- What the reader has in front of it: up to the writer, or up to where the writer went back and
from the start up to it. -/
inductive Holds (s : State Mem) : List R → Prop
  | ahead {rs : List R} (records : Straight L s.mem s.get rs s.put) (inside : s.put ≤ L.cap) :
    Holds s rs
  | around {old new : List R} {e : Nat} (behind : Straight L s.mem s.get old e)
    (inside : e ≤ L.cap) (back : L.cap < e + L.largest) (front : Straight L s.mem 0 new s.put)
    (apart : s.put < s.get) : Holds s (old ++ new)

variable {L}

@[simp] theorem total_nil : total L [] = 0 := rfl

@[simp] theorem total_cons (r : R) (rs : List R) : total L (r :: rs) = L.span r + total L rs := rfl

@[simp] theorem total_append (rs qs : List R) :
    total L (rs ++ qs) = total L rs + total L qs := by
  rw [total, List.map_append, List.sum_append]
  rfl

theorem length_le_total (rs : List R) : rs.length ≤ total L rs := by
  induction rs with
  | nil => exact Nat.le_refl 0
  | cons r rs ih =>
    have some := L.span_pos r
    rw [List.length_cons, total_cons]
    omega

theorem Straight.last {m : Mem} {a b : Nat} {rs : List R} (records : Straight L m a rs b) :
    b = a + total L rs := by
  induction rs generalizing a with
  | nil => exact records.symm
  | cons r rs ih =>
    rw [ih records.2.2.2, total_cons, Nat.add_assoc]

theorem Straight.snoc {m : Mem} {a b : Nat} {rs : List R} (records : Straight L m a rs b) {r : R}
    (room : b + L.largest ≤ L.cap) (here : L.load m b = r) (fits : L.Fits r) :
    Straight L m a (rs ++ [r]) (b + L.span r) := by
  induction rs generalizing a with
  | nil =>
    obtain rfl : a = b := records
    exact ⟨room, here, fits, rfl⟩
  | cons q rs ih =>
    obtain ⟨inside, first, fits', rest⟩ := records
    exact ⟨inside, first, fits', ih rest⟩

/-- A record that is stored behind or before them. -/
theorem Straight.apart {m : Mem} {a b c : Nat} {rs : List R} (records : Straight L m a rs b)
    {r : R} (fits : L.Fits r) (away : b ≤ c ∨ c + L.span r ≤ a) :
    Straight L (L.store m c r) a rs b := by
  induction rs generalizing a with
  | nil => exact records
  | cons q rs ih =>
    obtain ⟨inside, first, fits', rest⟩ := records
    have ends := rest.last
    exact ⟨inside, L.load_apart _ _ _ _ _ fits fits' first (by omega), fits', ih rest (by omega)⟩

/-! ### The reader -/

theorem drain_straight {m : Mem} {get put e : Nat} {rs : List R}
    (records : Straight L m get rs e) (away : put < get ∨ e ≤ put) (n : Nat) :
    drain L (rs.length + n) ⟨m, get, put⟩ =
      (drain L n ⟨m, e, put⟩).map fun done => (done.1, rs ++ done.2) := by
  induction rs generalizing get with
  | nil =>
    obtain rfl : get = e := records
    simp
  | cons r rs ih =>
    obtain ⟨inside, first, fits, rest⟩ := records
    have ends := rest.last
    have some := L.span_pos r
    rw [List.length_cons, Nat.add_right_comm, drain, if_neg (by show get ≠ put; omega),
      if_neg (by show ¬ L.cap < get; omega),
      if_neg (by show ¬ L.cap - get < L.largest; omega)]
    simp only [first]
    rw [ih rest (by omega), Option.map_map]
    rfl

/-- The reader takes all that waits. -/
theorem flush_holds {s : State Mem} {rs : List R} (held : Holds L s rs)
    (few : total L rs ≤ L.cap) : flush L s = some ({ s with get := s.put }, rs) := by
  have count := length_le_total (L := L) rs
  obtain ⟨m, get, put⟩ := s
  cases held with
  | ahead records inside =>
    obtain ⟨n, more⟩ := Nat.exists_eq_add_of_le (show rs.length ≤ L.cap + 1 by omega)
    rw [flush, more, drain_straight records (.inr (Nat.le_refl _))]
    cases n <;> simp [drain]
  | @around old new e behind inside back front apart =>
    rw [List.length_append] at count
    have ends := behind.last
    have ends' := front.last
    simp only at ends ends' apart
    obtain ⟨n, more⟩ :=
      Nat.exists_eq_add_of_le (show old.length + (new.length + 1) ≤ L.cap + 1 by omega)
    have back' : drain L (new.length + n + 1) ⟨m, e, put⟩ =
        drain L (new.length + n) ⟨m, 0, put⟩ := by
      rw [drain, if_neg (by show e ≠ put; omega), if_neg (by show ¬ L.cap < e; omega),
        if_pos (by show L.cap - e < L.largest; omega)]
    rw [flush, more, Nat.add_assoc, drain_straight behind (.inl apart),
      show new.length + 1 + n = new.length + n + 1 by omega, back',
      drain_straight front (.inr (Nat.le_refl _))]
    cases n <;> simp [drain]

/-! ### The writer -/

/-- Where the writer goes back, either nothing was read or all was. -/
theorem wrap_holds {s : State Mem} {rs : List R} (held : Holds L s rs)
    (few : total L rs + L.largest ≤ L.cap) :
    ∃ s' out waiting, wrap L s = some (s', out) ∧ out ++ waiting = rs ∧ Holds L s' waiting ∧
      s'.put + L.largest ≤ L.cap := by
  have inner : s.put ≤ L.cap := by
    cases held with
    | ahead records inside => exact inside
    | around behind inside back front apart =>
      have ends := behind.last
      omega
  rw [wrap, if_neg (by omega)]
  by_cases tail : L.cap - s.put < L.largest
  · rw [if_pos tail]
    cases held with
    | ahead records inside =>
      by_cases close : s.get < L.largest
      · rw [if_pos close, flush_holds (.ahead records inside) (by omega)]
        refine ⟨{ s with get := s.put, put := 0 }, rs, [], rfl, List.append_nil rs, ?_, ?_⟩
        · have positive : 0 < s.put := by
            have := L.largest_le
            omega
          have whole : Holds L { s with get := s.put, put := 0 } ([] ++ []) :=
            .around (e := s.put) rfl inside (by omega) rfl positive
          exact whole
        · show 0 + L.largest ≤ L.cap
          omega
      · rw [if_neg close]
        have positive : 0 < s.get := by omega
        refine ⟨{ s with put := 0 }, [], rs, rfl, rfl, ?_, ?_⟩
        · have whole : Holds L { s with put := 0 } (rs ++ []) :=
            .around records inside (by omega) rfl positive
          rwa [List.append_nil] at whole
        · show 0 + L.largest ≤ L.cap
          omega
    | around behind inside back front apart =>
      -- so much is not waiting
      have ends := front.last
      rw [total_append] at few
      omega
  · rw [if_neg tail]
    exact ⟨s, [], rs, rfl, rfl, held, by omega⟩

/-- One record more waits, and what was read was in front. -/
theorem push_holds {s : State Mem} {rs : List R} (held : Holds L s rs) {r : R} (fits : L.Fits r)
    (few : total L rs + L.span r + L.largest ≤ L.cap) :
    ∃ s' out waiting, push L s r = some (s', out) ∧ out ++ waiting = rs ++ [r] ∧
      Holds L s' waiting := by
  obtain ⟨s', out, waiting, wrapped, parts, held', room⟩ :=
    wrap_holds held (Nat.le_trans (by omega) few)
  have small := L.span_le r fits
  have less : total L waiting ≤ total L rs := by
    rw [← parts, total_append]
    exact Nat.le_add_left _ _
  refine ⟨{ s' with mem := L.store s'.mem s'.put r, put := s'.put + L.span r }, out,
    waiting ++ [r], by rw [push, wrapped]; rfl, by rw [← List.append_assoc, parts], ?_⟩
  have stored := L.load_store s'.mem s'.put r fits
  cases held' with
  | ahead records inside =>
    exact .ahead ((records.apart fits (.inl (Nat.le_refl _))).snoc room stored fits)
      (by show s'.put + L.span r ≤ L.cap; omega)
  | @around old new e behind inside back front apart =>
    have ends := behind.last
    have ends' := front.last
    rw [total_append] at less
    have ahead : s'.put + L.span r < s'.get := by omega
    rw [List.append_assoc]
    exact .around (behind.apart fits (.inr (Nat.le_of_lt ahead))) inside back
      ((front.apart fits (.inl (Nat.le_refl _))).snoc room stored fits) ahead

theorem pushAll_holds {s : State Mem} {rs qs : List R} (held : Holds L s rs)
    (fits : ∀ r ∈ qs, L.Fits r) (few : total L rs + total L qs + L.largest ≤ L.cap) :
    ∃ s' out waiting, pushAll L s qs = some (s', out) ∧ out ++ waiting = rs ++ qs ∧
      Holds L s' waiting := by
  induction qs generalizing s rs with
  | nil => exact ⟨s, [], rs, rfl, (List.append_nil rs).symm, held⟩
  | cons q qs ih =>
    rw [total_cons] at few
    obtain ⟨s₁, now, rs₁, pushed, parts, held₁⟩ :=
      push_holds held (fits q List.mem_cons_self) (by omega)
    have less : total L rs₁ ≤ total L rs + L.span q := by
      have sum := congrArg (total L) parts
      rw [total_append, total_append, total_cons, total_nil] at sum
      omega
    obtain ⟨s₂, later, rs₂, rest, parts', held₂⟩ :=
      ih held₁ (fun r mem => fits r (List.mem_cons_of_mem q mem)) (by omega)
    refine ⟨s₂, now ++ later, rs₂, by simp [pushAll, pushed, rest], ?_, held₂⟩
    rw [List.append_assoc, parts', ← List.append_assoc, parts, List.append_assoc,
      List.singleton_append]

/-! ### Runs -/

theorem call_holds {s : State Mem} {rs : List R} (held : Holds L s rs) {c : List R × Bool}
    (fits : ∀ r ∈ c.1, L.Fits r) (few : total L rs + total L c.1 + L.largest ≤ L.cap) :
    ∃ s' out waiting, call L s c = some (s', out) ∧ out ++ waiting = rs ++ c.1 ∧
      Holds L s' waiting ∧ (c.2 = true → waiting = []) := by
  obtain ⟨s₁, now, rs₁, pushed, parts, held₁⟩ := pushAll_holds held fits few
  obtain ⟨qs, reads⟩ := c
  cases reads with
  | false => exact ⟨s₁, now, rs₁, by simp [call, pushed], parts, held₁, nofun⟩
  | true =>
    have less : total L rs₁ ≤ L.cap := by
      have sum := congrArg (total L) parts
      rw [total_append, total_append] at sum
      simp only at few sum
      omega
    have inside : s₁.put ≤ L.cap := by
      cases held₁ with
      | ahead records inside => exact inside
      | around behind inside back front apart =>
        have ends := behind.last
        omega
    exact ⟨{ s₁ with get := s₁.put }, now ++ rs₁, [],
      by simp [call, pushed, flush_holds held₁ less],
      by rw [List.append_nil, parts], .ahead rfl inside, fun _ => rfl⟩

/-- Since the reader ran last never more than the ring without room for one record was pushed. -/
def Bounded (L : Layout Mem R) : Nat → List (List R × Bool) → Prop
  | _, [] => True
  | b, c :: cs =>
    b + total L c.1 + L.largest ≤ L.cap ∧ Bounded L (if c.2 then 0 else b + total L c.1) cs

/-- What was read and what waits is what was pushed, in its order. -/
theorem run_holds {s : State Mem} {rs : List R} (held : Holds L s rs) {b : Nat}
    (few : total L rs ≤ b) {cs : List (List R × Bool)} (fits : ∀ c ∈ cs, ∀ r ∈ c.1, L.Fits r)
    (bounded : Bounded L b cs) :
    ∃ s' out waiting, run L s cs = some (s', out) ∧
      out ++ waiting = rs ++ cs.flatMap Prod.fst ∧ Holds L s' waiting ∧
      (∀ c, cs.getLast? = some c → c.2 = true → waiting = []) := by
  induction cs generalizing s rs b with
  | nil => exact ⟨s, [], rs, rfl, (List.append_nil rs).symm, held, nofun⟩
  | cons c cs ih =>
    obtain ⟨room, rest⟩ := bounded
    obtain ⟨s₁, now, rs₁, called, parts, held₁, read⟩ :=
      call_holds held (fits c List.mem_cons_self) (by omega)
    have less : total L rs₁ ≤ if c.2 then 0 else b + total L c.1 := by
      split
      · rename_i reads
        rw [read reads]
        exact Nat.le_refl 0
      · have sum := congrArg (total L) parts
        rw [total_append, total_append] at sum
        omega
    obtain ⟨s₂, later, rs₂, done, parts', held₂, last⟩ :=
      ih held₁ less (fun c mem => fits c (List.mem_cons_of_mem _ mem)) rest
    refine ⟨s₂, now ++ later, rs₂, by simp [run, called, done], ?_, held₂, ?_⟩
    · rw [List.append_assoc, parts', ← List.append_assoc, parts, List.append_assoc,
        List.flatMap_cons]
    · intro d ends reads
      cases cs with
      | nil =>
        obtain rfl : c = d := Option.some.inj ends
        cases done
        -- nothing was pushed since
        rw [read reads] at parts'
        exact (List.append_eq_nil_iff.mp parts').2
      | cons c' cs => exact last d (by rwa [List.getLast?_cons_cons] at ends) reads

end RecordRing
