import Mathlib.Logic.ExistsUnique
import Mathlib.Order.Basic
import TBoxMpu.Can.DbcLoad

/-!
# The shape of a loaded table

What holds of the table after a file was read without an error: the names of the signals are
distinct, each signal is in the list of one message, the counts fit, and the match indices name
the signals whose suffixes declare them. The lines come in any order; each keeps the invariant
or ends the load.
-/

namespace Can

open Gb32960

variable {F : Type} {scan : Scan F} {clients : List Client} {answers : Answers} {l : Loading F}

/-! ### Counts -/

/-- The signals fit into the table. -/
def Loading.Fits (l : Loading F) : Prop := l.dbc.siglst.length ≤ dbcMaxSignal

theorem dbcParseMsg_fits (line : Bytes) (fits : l.Fits) : (dbcParseMsg scan line l).2.Fits := by
  unfold dbcParseMsg
  split
  · exact fits
  · split
    · exact fits
    · split
      · exact fits
      · split
        · exact fits
        · exact fits

theorem dbcParseSig_fits (line stack : Bytes) (m : Nat) (fits : l.Fits) :
    (dbcParseSig scan clients answers line stack m l).2.Fits := by
  unfold dbcParseSig
  split
  · exact fits
  · split
    · exact fits
    · dsimp only
      split
      · exact fits
      · split
        -- the table had room for one more
        next room =>
          split
          all_goals
            simp only [Loading.Fits, List.length_append, List.length_singleton]
            omega
        · exact fits

theorem dbcParseDef_fits (line : Bytes) (fits : l.Fits) :
    (dbcParseDef scan clients line l).Fits := by
  unfold dbcParseDef
  split
  · exact fits
  · split
    · exact fits
    · split
      · split
        · simp only [Loading.Fits, List.length_modify]
          exact fits
        · exact fits
      · exact fits

theorem lineStep_fits (first : Bool) (line : FileLine) (fits : l.Fits) :
    (lineStep scan clients answers first line l).2.Fits := by
  unfold lineStep
  split
  · exact fits
  · split
    · exact fits
    · split
      · exact dbcParseMsg_fits _ fits
      · split
        · split
          · exact fits
          · exact dbcParseSig_fits _ _ _ fits
        · split
          · exact dbcParseDef_fits _ fits
          · exact fits

theorem lineLoop_fits (first : Bool) (lines : List FileLine) (fits : l.Fits) :
    (lineLoop scan clients answers first lines l).2.Fits := by
  induction lines generalizing first l with
  | nil => exact fits
  | cons line rest ih =>
    have step : (lineStep scan clients answers first line l).2.Fits := lineStep_fits first line fits
    unfold lineLoop
    cases turn : lineStep scan clients answers first line l with
    | mk ok l' =>
      rw [turn] at step
      cases ok with
      | false => exact step
      | true => exact ih false step

theorem dbcMatchTblAdj_length (tbl : List (Option Nat)) (siglst : List (DbcSig F)) :
    (dbcMatchTblAdj tbl siglst).2.length = siglst.length := by
  induction siglst with
  | nil => rfl
  | cons sig rest ih =>
    unfold dbcMatchTblAdj
    dsimp only
    split
    · exact congrArg (· + 1) ih
    · rfl

theorem dbcRead_fits (file : DbcFile) (fits : l.Fits) :
    (dbcRead scan clients answers file l).2.Fits := by
  have lines : (lineLoop scan clients answers true file.lines l).2.Fits :=
    lineLoop_fits true file.lines fits
  have adjusted : ∀ tbl, (dbcMatchTblAdj tbl
      (lineLoop scan clients answers true file.lines l).2.dbc.siglst).2.length ≤ dbcMaxSignal :=
    fun tbl => (dbcMatchTblAdj_length tbl _).trans_le lines
  unfold dbcRead
  dsimp only
  split
  · exact lines
  · split
    · exact lines
    · split
      · exact adjusted _
      · split
        · exact adjusted _
        · simp only [Loading.Fits, dbcResetSignal, List.length_map]
          exact adjusted _

/-! ### Declared indices -/

/-- The indices that the turns of the loop over a suffix declare. -/
def sfxIndices (scan : Scan F) (clients : List Client) (answers : Answers) (sig : Nat) :
    Nat → Bytes → SfxState F → List UInt32
  | 0, _, _ => []
  | n + 1, p, s =>
    if p.headD 0 = 0 then []
    else
      match sfxStep scan clients answers sig p s with
      | (none, _) => []
      | (some p', s') =>
        (if p.headD 0 = 0x49 then (scan.sfxIndex p).toList else []) ++
          sfxIndices scan clients answers sig n p' s'

/-- The indices that the suffix of a new signal declares, for the signal's place. -/
def suffixIndices (scan : Scan F) (clients : List Client) (answers : Answers) (stack : Bytes)
    (l : Loading F) : Option Bytes → List (Nat × UInt32)
  | none => []
  | some sfx =>
    let sig := l.dbc.siglst.length
    let p := sfx ++ 0 :: stack
    (sfxIndices scan clients answers sig p.length p
      ⟨{ DbcSig.cleared scan.zero with suffix := sfx.take (dbcSuffixLen - 1) }, 0, l.matchTbl,
        l.calls⟩).map (sig, ·)

/-- The indices that a line declares. -/
def lineIndices (scan : Scan F) (clients : List Client) (answers : Answers) (line : FileLine)
    (l : Loading F) : List (Nat × UInt32) :=
  if scan.getKwd line.text = some keywordSignal then
    suffixIndices scan clients answers line.stack l
      ((scan.getSig line.text).bind fun fields => (dbcGetSigSuffix fields.name).2)
  else []

/-- The indices that the lines of a file declare, up to a line that ends the load. -/
def fileIndices (scan : Scan F) (clients : List Client) (answers : Answers) :
    Bool → List FileLine → Loading F → List (Nat × UInt32)
  | _, [], _ => []
  | first, line :: rest, l =>
    match lineStep scan clients answers first line l with
    | (false, _) => []
    | (true, l') =>
      lineIndices scan clients answers line l ++ fileIndices scan clients answers false rest l'

/-! ### The match table -/

/-- The table of match indices holds what was declared, and nothing else. -/
structure TableOf (tbl : List (Option Nat)) (decl : List (Nat × UInt32)) : Prop where
  size : tbl.length = dbcMaxMatchid
  entry : ∀ i k, tbl[i]? = some (some k) ↔ (k, UInt32.ofNat (i + 1)) ∈ decl ∧ i < dbcMaxMatchid
  range : ∀ d ∈ decl, 0 < d.2.toNat ∧ d.2.toNat ≤ dbcMaxMatchid

variable {tbl tbl' : List (Option Nat)} {decl : List (Nat × UInt32)}

/-- No index is declared twice. -/
theorem TableOf.unique (holds : TableOf tbl decl) {k k' : Nat} {i : UInt32} (one : (k, i) ∈ decl)
    (other : (k', i) ∈ decl) : k = k' := by
  have range := holds.range _ one
  have same : UInt32.ofNat (i.toNat - 1 + 1) = i := by
    rw [Nat.sub_add_cancel range.1, UInt32.ofNat_toNat]
  have here : i.toNat - 1 < dbcMaxMatchid := by
    dsimp only at range
    omega
  -- both would be the entry at the index
  have first := (holds.entry (i.toNat - 1) k).mpr ⟨same.symm ▸ one, here⟩
  have second := (holds.entry (i.toNat - 1) k').mpr ⟨same.symm ▸ other, here⟩
  exact Option.some.inj (Option.some.inj (first.symm.trans second))

theorem tableOf_nothing : TableOf (List.replicate dbcMaxMatchid none) [] := by
  refine ⟨List.length_replicate, ?_, nofun⟩
  intro i k
  constructor
  · intro entry
    obtain ⟨inside, at_⟩ := List.getElem?_eq_some_iff.mp entry
    rw [List.getElem_replicate] at at_
    cases at_
  · rintro ⟨mem, -⟩
    cases mem

theorem TableOf.set {id : UInt32} {sig : Nat} (holds : TableOf tbl decl)
    (done : dbcMatchTblSet tbl id sig = some tbl') : TableOf tbl' (decl ++ [(sig, id)]) := by
  unfold dbcMatchTblSet at done
  split at done
  · cases done
  next fits =>
    obtain ⟨positive, small⟩ : id ≠ 0 ∧ id.toNat ≤ dbcMaxMatchid := by
      simpa using fits
    have nonzero : 0 < id.toNat := by
      rcases Nat.eq_zero_or_pos id.toNat with zero | pos
      · exact absurd (UInt32.toNat_inj.mp zero) positive
      · exact pos
    split at done
    · cases done
    next free =>
      cases done
      have inside : id.toNat - 1 < tbl.length := by
        rw [holds.size]
        omega
      have empty : tbl[id.toNat - 1]? = some none := by
        rw [List.getD_eq_getElem?_getD, List.getElem?_eq_getElem inside, Option.getD_some,
          Bool.not_eq_true, Option.isSome_eq_false_iff, Option.isNone_iff_eq_none] at free
        rw [List.getElem?_eq_getElem inside, free]
      refine ⟨(List.length_set ..).trans holds.size, ?_, ?_⟩
      · intro i k
        rw [List.getElem?_set, List.mem_append, List.mem_singleton, Prod.mk.injEq]
        by_cases here : id.toNat - 1 = i
        · -- the entry that is set was free, so nothing declared its index before
          have index : UInt32.ofNat (i + 1) = id := by
            rw [← here, Nat.sub_add_cancel nonzero, UInt32.ofNat_toNat]
          have fresh : (k, UInt32.ofNat (i + 1)) ∉ decl := by
            intro old
            have entry := (holds.entry i k).mpr ⟨old, by omega⟩
            rw [← here, empty] at entry
            cases entry
          rw [if_pos here, if_pos (here ▸ inside)]
          constructor
          · intro same
            obtain rfl := Option.some.inj (Option.some.inj same)
            exact ⟨.inr ⟨rfl, index⟩, by omega⟩
          · rintro ⟨old | ⟨rfl, -⟩, -⟩
            · exact absurd old fresh
            · rfl
        · -- the others are as declared before, the new index is not theirs
          rw [if_neg here, holds.entry i k]
          constructor
          · rintro ⟨old, bound⟩
            exact ⟨.inl old, bound⟩
          · rintro ⟨old | ⟨-, new⟩, bound⟩
            · exact ⟨old, bound⟩
            · have same : (UInt32.ofNat (i + 1)).toNat = i + 1 :=
                UInt32.toNat_ofNat_of_lt' (by
                  simp only [UInt32.size, dbcMaxMatchid] at *
                  omega)
              rw [new] at same
              omega
      · intro d mem
        rcases List.mem_append.mp mem with mem | mem
        · exact holds.range d mem
        · rw [List.mem_singleton.mp mem]
          exact ⟨nonzero, small⟩

/-! ### One suffix -/

/-- While a suffix is read: the table, and the match values read so far come first. -/
structure Matching (s : SfxState F) (decl : List (Nat × UInt32)) : Prop where
  table : TableOf s.matchTbl decl
  width : s.sig.mi.length = 4
  set : ∀ j v, s.sig.mi[j]? = some v → (v ≠ 0 ↔ j < s.mc)

variable {s s' : SfxState F} {sig : Nat} {p p' : Bytes}

theorem askClients_kept (asked : List Client) (ret lastret : Int32) (id : Nat) (p : Bytes)
    (s : SfxState F) :
    let s' := (askClients scan answers id p asked ret lastret s).2.2.2
    s'.matchTbl = s.matchTbl ∧ s'.mc = s.mc ∧ s'.sig.mi = s.sig.mi := by
  induction asked generalizing ret lastret s with
  | nil => exact ⟨rfl, rfl, rfl⟩
  | cons c rest ih =>
    unfold askClients
    dsimp only
    split
    · split
      · exact ⟨rfl, rfl, rfl⟩
      · exact ih ..
    · exact ih ..

/-- A turn keeps the invariant, and an `I` declares its index. -/
theorem sfxStep_matching (inv : Matching s decl)
    (turn : sfxStep scan clients answers sig p s = (some p', s')) :
    Matching s' (decl ++
      (if p.headD 0 = 0x49 then (scan.sfxIndex p).toList else []).map (sig, ·)) := by
  unfold sfxStep at turn
  by_cases port : p.headD 0 = 0x40
  · have other : ¬ p.headD 0 = 0x49 := by
      rw [port]
      decide
    rw [if_pos port] at turn
    rw [if_neg other, List.map_nil, List.append_nil]
    split at turn
    · cases turn
    · split at turn
      · cases turn
      · cases turn
        exact ⟨inv.table, inv.width, inv.set⟩
  · rw [if_neg port] at turn
    by_cases bcd : p.headD 0 = 0x42
    · have other : ¬ p.headD 0 = 0x49 := by
        rw [bcd]
        decide
      rw [if_pos bcd] at turn
      rw [if_neg other, List.map_nil, List.append_nil]
      cases turn
      exact ⟨inv.table, inv.width, inv.set⟩
    · rw [if_neg bcd] at turn
      by_cases match_ : p.headD 0 = 0x4D
      · have other : ¬ p.headD 0 = 0x49 := by
          rw [match_]
          decide
        rw [if_pos match_] at turn
        rw [if_neg other, List.map_nil, List.append_nil]
        split at turn
        · cases turn
        next room =>
          split at turn
          · cases turn
          next mv mi _ =>
            split at turn
            · cases turn
            next fits =>
              cases turn
              refine ⟨inv.table, (List.length_set ..).trans inv.width, ?_⟩
              intro j v at_
              dsimp only at at_ ⊢
              rw [List.getElem?_set] at at_
              -- the value is put behind those read so far
              by_cases here : s.mc = j
              · rw [if_pos here, if_pos (by rw [inv.width]; omega)] at at_
                cases at_
                have nonzero : mi ≠ 0 := fun zero => fits (.inl zero)
                exact ⟨fun _ => by omega, fun _ => nonzero⟩
              · rw [if_neg here] at at_
                rw [inv.set j v at_]
                omega
      · rw [if_neg match_] at turn
        by_cases index : p.headD 0 = 0x49
        · rw [if_pos index] at turn
          rw [if_pos index]
          split at turn
          · cases turn
          next midx read =>
            split at turn
            · cases turn
            next tbl set =>
              cases turn
              rw [read]
              exact ⟨inv.table.set set, inv.width, inv.set⟩
        · rw [if_neg index] at turn
          rw [if_neg index, List.map_nil, List.append_nil]
          dsimp only at turn
          -- any other letter is the clients' matter
          obtain ⟨table, mc, mi⟩ : _ ∧ _ ∧ _ :=
            @askClients_kept F scan answers (clients.take dbcMaxCallback) 0 0 (sig + 1) p s
          split at turn
          · cases turn
          · cases turn
            refine ⟨table.symm ▸ inv.table, ?_, ?_⟩
            · rw [mi]
              exact inv.width
            · rw [mi, mc]
              exact inv.set

theorem sfxLoop_matching {n : Nat} (inv : Matching s decl)
    (read : (sfxLoop scan clients answers sig n p s).1 = true) :
    Matching (sfxLoop scan clients answers sig n p s).2
      (decl ++ (sfxIndices scan clients answers sig n p s).map (sig, ·)) := by
  induction n generalizing p s decl with
  | zero =>
    unfold sfxIndices
    rw [List.map_nil, List.append_nil]
    exact inv
  | succ n ih =>
    unfold sfxLoop at read ⊢
    unfold sfxIndices
    split at read
    -- the suffix ends at its zero byte
    next zero =>
      rw [if_pos zero, if_pos zero, List.map_nil, List.append_nil]
      exact inv
    next more =>
      rw [if_neg more, if_neg more]
      cases turn : sfxStep scan clients answers sig p s with
      | mk next s' =>
        rw [turn] at read
        cases next with
        | none => cases read
        | some p' =>
          have step := ih (sfxStep_matching inv turn) read
          rw [List.append_assoc, ← List.map_append] at step
          exact step

/-! ### Lines -/

/-- The message at place `m` has the signal in its list. -/
def Owns (msglst : List DbcMsg) (m k : Nat) : Prop :=
  ∃ msg, msglst[m]? = some msg ∧ k ∈ msg.siglst

variable {msglst : List DbcMsg} {m k : Nat}

theorem owns_modify {f : DbcMsg → DbcMsg} (kept : ∀ msg, (f msg).siglst = msg.siglst) (m' : Nat) :
    Owns (msglst.modify m' f) m k ↔ Owns msglst m k := by
  unfold Owns
  rw [List.getElem?_modify]
  cases at_ : msglst[m]? with
  | none => simp
  | some msg => by_cases here : m' = m <;> simp [here, kept]

theorem owns_new (id : UInt32) (ecu : Bytes) :
    Owns (msglst ++ [⟨id, ecu, []⟩]) m k ↔ Owns msglst m k := by
  unfold Owns
  rw [List.getElem?_append]
  split
  · rfl
  next out =>
    rw [List.getElem?_eq_none (Nat.not_lt.mp out)]
    cases m - msglst.length with
    | zero => simp
    | succ n => simp

theorem owns_add {sig m' : Nat} (inside : m' < msglst.length) :
    Owns (msglst.modify m' fun msg => { msg with siglst := msg.siglst ++ [sig] }) m k ↔
      Owns msglst m k ∨ (m = m' ∧ k = sig) := by
  unfold Owns
  rw [List.getElem?_modify]
  by_cases here : m' = m
  · subst here
    rw [List.getElem?_eq_getElem inside]
    simp
  · cases at_ : msglst[m]? with
    | none => simp [here, Ne.symm here]
    | some msg => simp [here, Ne.symm here]

/-- What holds between the lines of a file, where `decl` are the indices declared so far. -/
structure Shaping (l : Loading F) (decl : List (Nat × UInt32)) : Prop where
  names : (l.dbc.siglst.map (·.name)).Nodup
  messages : l.dbc.msglst.length ≤ dbcMaxMessage
  current : ∀ m, l.msg = some m → m < l.dbc.msglst.length
  owner : ∀ k < l.dbc.siglst.length, ∃! m, Owns l.dbc.msglst m k
  owned : ∀ m k, Owns l.dbc.msglst m k → k < l.dbc.siglst.length
  table : TableOf l.matchTbl decl
  declared : ∀ d ∈ decl, d.1 < l.dbc.siglst.length
  packed : ∀ sig ∈ l.dbc.siglst, ∃ mc, ∀ (j : Nat) v, sig.mi[j]? = some v → (v ≠ 0 ↔ j < mc)

theorem dbcParseMsg_shaping (line : Bytes) (inv : Shaping l decl) :
    Shaping (dbcParseMsg scan line l).2 decl := by
  unfold dbcParseMsg
  split
  · exact inv
  next id ecu _ =>
    split
    · exact inv
    · split
      -- a message seen before becomes the current one
      next m found =>
        have kept : ∀ msg : DbcMsg,
            (if msg.id = 0 then { msg with id, ecu } else msg).siglst = msg.siglst := by
          intro msg
          split
          · rfl
          · rfl
        have inside : m < l.dbc.msglst.length := by
          obtain ⟨inside, -⟩ := List.findIdx?_eq_some_iff_getElem.mp found
          exact inside
        refine ⟨inv.names, ?_, ?_, ?_, ?_, inv.table, inv.declared, inv.packed⟩
        · rw [List.length_modify]
          exact inv.messages
        · intro m' same
          cases same
          rw [List.length_modify]
          exact inside
        · intro k small
          simp only [owns_modify kept]
          exact inv.owner k small
        · intro m' k owns
          exact inv.owned m' k ((owns_modify kept m).mp owns)
      · split
        next room =>
          refine ⟨inv.names, ?_, ?_, ?_, ?_, inv.table, inv.declared, inv.packed⟩
          · rw [List.length_append, List.length_singleton]
            exact room
          · intro m' same
            cases same
            rw [List.length_append, List.length_singleton]
            exact Nat.lt_succ_self _
          · intro k small
            simp only [owns_new]
            exact inv.owner k small
          · intro m' k owns
            exact inv.owned m' k ((owns_new id ecu).mp owns)
        · exact inv

theorem map_modify_kept {A B : Type} {f : A → A} {g : A → B} (kept : ∀ a, g (f a) = g a)
    (as : List A) (k : Nat) : (as.modify k f).map g = as.map g := by
  apply List.ext_getElem?
  intro i
  rw [List.getElem?_map, List.getElem?_map, List.getElem?_modify]
  cases as[i]? with
  | none => rfl
  | some a => by_cases here : k = i <;> simp [here, kept]

theorem dbcParseDef_shaping (line : Bytes) (inv : Shaping l decl) :
    Shaping (dbcParseDef scan clients line l) decl := by
  have same : ∀ baud calls, Shaping { l with baud, calls } decl := fun baud calls =>
    ⟨inv.names, inv.messages, inv.current, inv.owner, inv.owned, inv.table, inv.declared, inv.packed⟩
  unfold dbcParseDef
  split
  · exact same _ _
  · split
    · exact same _ _
    · split
      next name init _ =>
        split
        next k _ =>
          -- the initial value of one signal changes
          refine ⟨?_, inv.messages, inv.current, ?_, ?_, inv.table, ?_, ?_⟩
          · have kept := map_modify_kept (f := fun s : DbcSig F => { s with init }) (g := (·.name))
              (fun _ => rfl) l.dbc.siglst k
            dsimp only
            rw [kept]
            exact inv.names
          · dsimp only
            rw [List.length_modify]
            exact inv.owner
          · dsimp only
            rw [List.length_modify]
            exact inv.owned
          · dsimp only
            rw [List.length_modify]
            exact inv.declared
          · intro sig mem
            obtain ⟨i, at_⟩ := List.mem_iff_getElem?.mp mem
            rw [List.getElem?_modify] at at_
            obtain ⟨old, here, rfl⟩ := Option.map_eq_some_iff.mp at_
            obtain ⟨mc, packed⟩ := inv.packed old (List.mem_of_getElem? here)
            refine ⟨mc, ?_⟩
            split
            · exact packed
            · exact packed
        · exact inv
      · exact same _ _

theorem dbcParseSigSuffix_matching {sfx : Option Bytes} {stack : Bytes}
    (inv : Matching ⟨.cleared scan.zero, 0, l.matchTbl, l.calls⟩ decl)
    (ok : (dbcParseSigSuffix scan clients answers l.dbc.siglst.length sfx stack
      ⟨.cleared scan.zero, 0, l.matchTbl, l.calls⟩).1 = true) :
    Matching (dbcParseSigSuffix scan clients answers l.dbc.siglst.length sfx stack
        ⟨.cleared scan.zero, 0, l.matchTbl, l.calls⟩).2
      (decl ++ suffixIndices scan clients answers stack l sfx) := by
  cases sfx with
  | none =>
    unfold suffixIndices
    rw [List.append_nil]
    exact inv
  | some sfx => exact sfxLoop_matching (p := sfx ++ 0 :: stack) ⟨inv.table, inv.width, inv.set⟩ ok

theorem suffixIndices_place {stack : Bytes} {sfx : Option Bytes} {d : Nat × UInt32}
    (mem : d ∈ suffixIndices scan clients answers stack l sfx) : d.1 = l.dbc.siglst.length := by
  cases sfx with
  | none => cases mem
  | some sfx =>
    obtain ⟨i, -, rfl⟩ := List.mem_map.mp mem
    rfl

/-- A signal with a new name is put at the end of the table and into the list of a message. -/
theorem Shaping.add_signal {l' : Loading F} {new : List (Nat × UInt32)} {sig : DbcSig F} {m : Nat}
    (inv : Shaping l decl) (inside : m < l.dbc.msglst.length)
    (siglst : l'.dbc.siglst = l.dbc.siglst ++ [sig])
    (msglst : l'.dbc.msglst =
      l.dbc.msglst.modify m fun msg => { msg with siglst := msg.siglst ++ [l.dbc.siglst.length] })
    (msg : l'.msg = l.msg) (other : ∀ old ∈ l.dbc.siglst, old.name ≠ sig.name)
    (table : TableOf l'.matchTbl (decl ++ new)) (placed : ∀ d ∈ new, d.1 = l.dbc.siglst.length)
    (packed : ∃ mc, ∀ (j : Nat) v, sig.mi[j]? = some v → (v ≠ 0 ↔ j < mc)) :
    Shaping l' (decl ++ new) := by
  have length : l'.dbc.siglst.length = l.dbc.siglst.length + 1 := by
    rw [siglst, List.length_append, List.length_singleton]
  have owns : ∀ m' k, Owns l'.dbc.msglst m' k ↔
      Owns l.dbc.msglst m' k ∨ (m' = m ∧ k = l.dbc.siglst.length) := by
    intro m' k
    rw [msglst]
    exact owns_add inside
  -- the new signal's place is in no list yet
  have unused : ∀ m', ¬ Owns l.dbc.msglst m' l.dbc.siglst.length := fun m' owns =>
    absurd (inv.owned m' _ owns) (Nat.lt_irrefl _)
  refine ⟨?_, ?_, ?_, ?_, ?_, table, ?_, ?_⟩
  · rw [siglst, List.map_append, List.map_singleton]
    refine List.nodup_append.mpr ⟨inv.names, List.pairwise_singleton _ _, ?_⟩
    intro a old b new
    obtain ⟨earlier, mem, rfl⟩ := List.mem_map.mp old
    rw [List.mem_singleton.mp new]
    exact other earlier mem
  · rw [msglst, List.length_modify]
    exact inv.messages
  · intro m' same
    rw [msglst, List.length_modify]
    exact inv.current m' (msg ▸ same)
  · intro k small
    simp only [owns]
    rw [length] at small
    -- the message gets the new signal, the others keep theirs
    by_cases new : k = l.dbc.siglst.length
    · refine ⟨m, .inr ⟨rfl, new⟩, ?_⟩
      rintro m' (old | ⟨same, -⟩)
      · exact absurd (new ▸ old) (unused m')
      · exact same
    · obtain ⟨m', owner, only⟩ := inv.owner k (by omega)
      refine ⟨m', .inl owner, ?_⟩
      rintro m'' (old | ⟨-, same⟩)
      · exact only m'' old
      · exact absurd same new
  · intro m' k owned
    rw [length]
    rcases (owns m' k).mp owned with old | ⟨-, rfl⟩
    · exact Nat.lt_succ_of_lt (inv.owned m' k old)
    · exact Nat.lt_succ_self _
  · intro d mem
    rw [length]
    rcases List.mem_append.mp mem with old | new
    · exact Nat.lt_succ_of_lt (inv.declared d old)
    · rw [placed d new]
      exact Nat.lt_succ_self _
  · intro sig' mem
    rw [siglst] at mem
    rcases List.mem_append.mp mem with old | new
    · exact inv.packed sig' old
    · rw [List.mem_singleton.mp new]
      exact packed

/-- A signal that is read stands at the end of the table and in the list of the message. -/
theorem dbcParseSig_shaping (line : FileLine) {m : Nat} (inv : Shaping l decl)
    (inside : m < l.dbc.msglst.length) (keyword : scan.getKwd line.text = some keywordSignal)
    (ok : (dbcParseSig scan clients answers line.text line.stack m l).1 = true) :
    Shaping (dbcParseSig scan clients answers line.text line.stack m l).2
      (decl ++ lineIndices scan clients answers line l) := by
  have start : Matching ⟨.cleared scan.zero, 0, l.matchTbl, l.calls⟩ decl := by
    refine ⟨inv.table, List.length_replicate, ?_⟩
    intro j v at_
    have zero : v = 0 := List.eq_of_mem_replicate (List.mem_of_getElem? at_)
    simp [zero]
  unfold lineIndices
  rw [if_pos keyword]
  unfold dbcParseSig at ok ⊢
  split at ok
  · cases ok
  next fields read =>
    rw [read, Option.bind_some]
    split at ok
    · cases ok
    next fits =>
      rw [if_neg fits]
      generalize dbcGetSigSuffix fields.name = cut at ok ⊢
      obtain ⟨name, sfx⟩ := cut
      dsimp only at ok ⊢
      split at ok
      · cases ok
      next fresh =>
        rw [if_neg fresh]
        split at ok
        next room =>
          rw [if_pos room]
          have matching := @dbcParseSigSuffix_matching _ scan clients answers l decl sfx line.stack start
          generalize dbcParseSigSuffix scan clients answers l.dbc.siglst.length sfx line.stack
            ⟨.cleared scan.zero, 0, l.matchTbl, l.calls⟩ = result at ok matching ⊢
          obtain ⟨done, s⟩ := result
          dsimp only at ok matching ⊢
          cases done with
          | false => cases ok
          | true =>
            have matching := matching rfl
            rw [if_pos rfl]
            -- a name that is in the table ends the load
            have other : ∀ sig ∈ l.dbc.siglst, sig.name ≠ name := by
              have none : dbcFindSig l.dbc name = none := by simpa using fresh
              intro sig mem
              simpa using List.findIdx?_eq_none_iff.mp none sig mem
            exact inv.add_signal inside rfl rfl rfl other matching.table
              (fun d mem => suffixIndices_place mem) ⟨s.mc, matching.set⟩
        · cases ok

theorem lineStep_shaping (first : Bool) (line : FileLine) (inv : Shaping l decl)
    (ok : (lineStep scan clients answers first line l).1 = true) :
    Shaping (lineStep scan clients answers first line l).2
      (decl ++ lineIndices scan clients answers line l) := by
  -- a line that is no signal declares no index
  have other : scan.getKwd line.text ≠ some keywordSignal →
      decl ++ lineIndices scan clients answers line l = decl := by
    intro differs
    unfold lineIndices
    rw [if_neg differs, List.append_nil]
  unfold lineStep at ok ⊢
  split at ok
  · cases ok
  next version =>
    rw [if_neg version]
    cases word : scan.getKwd line.text with
    | none =>
      rw [other (by rw [word]; nofun)]
      exact inv
    | some keywd =>
      rw [word] at ok
      dsimp only at ok ⊢
      by_cases isMsg : keywd = keywordMsg
      · rw [if_pos isMsg, other (by rw [word, isMsg]; decide)]
        exact dbcParseMsg_shaping _ inv
      · rw [if_neg isMsg] at ok ⊢
        by_cases isSig : keywd = keywordSignal
        · rw [if_pos isSig] at ok ⊢
          cases current : l.msg with
          | none =>
            rw [current] at ok
            cases ok
          | some m =>
            rw [current] at ok
            exact dbcParseSig_shaping line inv (inv.current m current) (isSig ▸ word) ok
        · rw [if_neg isSig, other (by rw [word]; exact fun same => isSig (Option.some.inj same))]
          split
          · exact dbcParseDef_shaping _ inv
          · exact inv

theorem lineLoop_shaping (first : Bool) (lines : List FileLine) (inv : Shaping l decl)
    (ok : (lineLoop scan clients answers first lines l).1 = true) :
    Shaping (lineLoop scan clients answers first lines l).2
      (decl ++ fileIndices scan clients answers first lines l) := by
  induction lines generalizing first l decl with
  | nil =>
    unfold fileIndices
    rw [List.append_nil]
    exact inv
  | cons line rest ih =>
    have step : _ → Shaping (lineStep scan clients answers first line l).2 _ :=
      lineStep_shaping first line inv
    unfold lineLoop at ok ⊢
    unfold fileIndices
    cases turn : lineStep scan clients answers first line l with
    | mk more l' =>
      rw [turn] at ok step
      cases more with
      | false => cases ok
      | true =>
        have rest := ih false (step rfl) ok
        rw [List.append_assoc] at rest
        exact rest

/-! ### The whole file -/

/-- The match indices of a signal become ids of signals that the table has for them. -/
theorem adjMatch_entries {mi : List UInt32} {mc : Nat}
    (packed : ∀ (j : Nat) v, mi[j]? = some v → (v ≠ 0 ↔ j < mc))
    (ok : (adjMatch tbl mi).1 = true) {j : Nat} {v : UInt32}
    (at_ : (adjMatch tbl mi).2[j]? = some v) (nonzero : v ≠ 0) :
    ∃ index sig, mi[j]? = some index ∧ index ≠ 0 ∧
      tbl.getD (index.toNat - 1) none = some sig ∧ v = UInt32.ofNat (sig + 1) := by
  induction mi generalizing mc j with
  | nil => cases at_
  | cons index rest ih =>
    unfold adjMatch at ok at_
    split at ok
    next zero =>
      rw [if_pos zero] at at_
      -- the list ends at its first zero, behind which all are zero
      have none : ¬ 0 < mc := fun pos => (packed 0 index rfl).mpr pos zero
      have early := (packed j v at_).mp nonzero
      omega
    next more =>
      rw [if_neg more] at at_
      cases entry : tbl.getD (index.toNat - 1) none with
      | none =>
        rw [entry] at ok
        cases ok
      | some sig =>
        rw [entry] at ok at_
        cases j with
        | zero =>
          obtain rfl : UInt32.ofNat (sig + 1) = v := Option.some.inj at_
          exact ⟨index, sig, rfl, more, entry, rfl⟩
        | succ j =>
          have later : ∀ (j : Nat) v, rest[j]? = some v → (v ≠ 0 ↔ j < mc - 1) := by
            intro j v here
            rw [packed (j + 1) v here]
            omega
          exact ih later ok at_

theorem dbcMatchTblAdj_entries {siglst : List (DbcSig F)}
    (packed : ∀ sig ∈ siglst, ∃ mc, ∀ (j : Nat) v, sig.mi[j]? = some v → (v ≠ 0 ↔ j < mc))
    (ok : (dbcMatchTblAdj tbl siglst).1 = true) {k : Nat} {sig : DbcSig F}
    (at_ : (dbcMatchTblAdj tbl siglst).2[k]? = some sig) {j : Nat} {v : UInt32}
    (entry : sig.mi[j]? = some v) (nonzero : v ≠ 0) :
    ∃ old index place, siglst[k]? = some old ∧ old.mi[j]? = some index ∧ index ≠ 0 ∧
      tbl.getD (index.toNat - 1) none = some place ∧ v = UInt32.ofNat (place + 1) := by
  induction siglst generalizing k with
  | nil => cases at_
  | cons first rest ih =>
    unfold dbcMatchTblAdj at ok at_
    dsimp only at ok at_
    split at ok
    next adjusted =>
      rw [if_pos adjusted] at at_
      cases k with
      | zero =>
        obtain rfl := Option.some.inj at_
        obtain ⟨mc, first_packed⟩ := packed first (List.mem_cons_self ..)
        obtain ⟨index, place, old⟩ := adjMatch_entries first_packed adjusted entry nonzero
        exact ⟨first, index, place, rfl, old⟩
      | succ k => exact ih (fun s mem => packed s (List.mem_cons_of_mem _ mem)) ok at_
    · cases ok

theorem dbcMatchTblAdj_names (tbl : List (Option Nat)) (siglst : List (DbcSig F)) :
    (dbcMatchTblAdj tbl siglst).2.map (·.name) = siglst.map (·.name) := by
  induction siglst with
  | nil => rfl
  | cons sig rest ih =>
    unfold dbcMatchTblAdj
    dsimp only
    split
    · exact congrArg (sig.name :: ·) ih
    · rfl

/-- The shape of a table that is loaded. -/
structure DbcData.Shaped (dbc : DbcData F) : Prop where
  names : (dbc.siglst.map (·.name)).Nodup
  owner : ∀ k < dbc.siglst.length, ∃! m, Owns dbc.msglst m k
  owned : ∀ m k, Owns dbc.msglst m k → k < dbc.siglst.length
  messages : dbc.msglst.length ≤ dbcMaxMessage
  signals : dbc.siglst.length ≤ dbcMaxSignal

/-- The match indices of a table: an entry of the table of indices is the place of the signal
that declares the index; a signal's own entries, `siglst` before the load ended, are ids. -/
structure DbcData.Indexed (dbc : DbcData F) (tbl : List (Option Nat)) (siglst : List (DbcSig F))
    (decl : List (Nat × UInt32)) : Prop where
  table : ∀ i k, tbl[i]? = some (some k) →
    k < dbc.siglst.length ∧ (k, UInt32.ofNat (i + 1)) ∈ decl
  refs : ∀ (k : Nat) (sig : DbcSig F), dbc.siglst[k]? = some sig →
    ∀ (j : Nat) (v : UInt32), sig.mi[j]? = some v → v ≠ 0 → v.toNat ≤ dbc.siglst.length ∧
      ∃ (old : DbcSig F) (index : UInt32), siglst[k]? = some old ∧ old.mi[j]? = some index ∧
        (v.toNat - 1, index) ∈ decl
  unique : ∀ k k' i, (k, i) ∈ decl → (k', i) ∈ decl → k = k'

/-- Two tables with the same messages, names and match indices. -/
structure SameShape (dbc dbc' : DbcData F) : Prop where
  msglst : dbc'.msglst = dbc.msglst
  siglst : dbc'.siglst.map (fun sig => (sig.name, sig.mi)) =
    dbc.siglst.map (fun sig => (sig.name, sig.mi))

variable {dbc dbc' dbc'' : DbcData F} {siglst : List (DbcSig F)}

theorem SameShape.trans (first : SameShape dbc dbc') (second : SameShape dbc' dbc'') :
    SameShape dbc dbc'' :=
  ⟨second.msglst.trans first.msglst, second.siglst.trans first.siglst⟩

theorem SameShape.length (same : SameShape dbc dbc') : dbc'.siglst.length = dbc.siglst.length := by
  have lengths := congrArg List.length same.siglst
  simpa using lengths

theorem SameShape.shaped (same : SameShape dbc dbc') (shaped : dbc.Shaped) : dbc'.Shaped := by
  have names : dbc'.siglst.map (·.name) = dbc.siglst.map (·.name) := by
    have firsts := congrArg (List.map Prod.fst) same.siglst
    rw [List.map_map, List.map_map] at firsts
    exact firsts
  constructor
  · exact names ▸ shaped.names
  · rw [same.length, same.msglst]
    exact shaped.owner
  · rw [same.length, same.msglst]
    exact shaped.owned
  · exact same.msglst ▸ shaped.messages
  · exact same.length ▸ shaped.signals

theorem SameShape.indexed (same : SameShape dbc dbc') (indexed : dbc.Indexed tbl siglst decl) :
    dbc'.Indexed tbl siglst decl := by
  refine ⟨?_, ?_, indexed.unique⟩
  · rw [same.length]
    exact indexed.table
  · intro k sig at_ j v entry nonzero
    -- the pair of name and indices at the place is the same
    have pair : (dbc.siglst.map fun sig => (sig.name, sig.mi))[k]? = some (sig.name, sig.mi) := by
      rw [← same.siglst, List.getElem?_map, at_]
      rfl
    rw [List.getElem?_map] at pair
    obtain ⟨sig', at', equal⟩ := Option.map_eq_some_iff.mp pair
    obtain ⟨-, mi⟩ := Prod.mk.inj equal
    rw [same.length]
    exact indexed.refs k sig' at' j v (mi.symm ▸ entry) nonzero

theorem sameShape_markWarnings (flag : UInt32) (gb gb' : GbInfo) (dbc : DbcData F) :
    SameShape dbc (markWarnings flag gb gb' dbc) := by
  unfold markWarnings
  split
  · exact ⟨rfl, rfl⟩
  · split
    · exact ⟨rfl, rfl⟩
    · refine List.foldlRecOn (motive := fun dbc' => SameShape dbc dbc') _ _ ⟨rfl, rfl⟩ ?_
      intro dbc' same i mem
      dsimp only
      split
      · exact same.trans ⟨rfl, map_modify_kept
          (f := fun sig : DbcSig F => { sig with usrflags := sig.usrflags ||| flag })
          (fun _ => rfl) _ _⟩
      · exact same

theorem sameShape_reset (dbc : DbcData F) : SameShape dbc (dbcResetSignal dbc) := by
  refine ⟨rfl, ?_⟩
  simp only [dbcResetSignal, List.map_map]
  rfl

/-- The lines of the file, as they are read into the spare table. -/
def World.linesRead (scan : Scan F) (answers : Answers) (file : DbcFile) (w : World F) :
    Loading F :=
  (lineLoop scan w.clients answers true file.lines
    (Loading.begin (w.dbcMem (spareOf w.dbcData)) noBaud
      (notifyAll w.clients (.reload file.fpath) []))).2

/-- The match indices that the file declares, with the places of their signals. -/
def World.indices (scan : Scan F) (answers : Answers) (file : DbcFile) (w : World F) :
    List (Nat × UInt32) :=
  fileIndices scan w.clients answers true file.lines
    (Loading.begin (w.dbcMem (spareOf w.dbcData)) noBaud
      (notifyAll w.clients (.reload file.fpath) []))

variable {file : DbcFile} {w w' : World F}

theorem shaping_begin (spare : DbcData F) (baud : List Int16) (calls : List Call) :
    Shaping (Loading.begin spare baud calls) [] := by
  refine ⟨List.Pairwise.nil, Nat.zero_le _, nofun, nofun, ?_, tableOf_nothing, nofun, nofun⟩
  rintro m k ⟨msg, at_, -⟩
  cases at_

/-- Replacing the indices by ids leaves the signals in their places. -/
theorem Shaping.adjusted_shaped (inv : Shaping l decl) (few : l.Fits) :
    ({ l.dbc with siglst := (dbcMatchTblAdj l.matchTbl l.dbc.siglst).2 } : DbcData F).Shaped := by
  have length := dbcMatchTblAdj_length l.matchTbl l.dbc.siglst
  refine ⟨?_, ?_, ?_, inv.messages, ?_⟩
  · dsimp only
    rw [dbcMatchTblAdj_names]
    exact inv.names
  · dsimp only
    rw [length]
    exact inv.owner
  · dsimp only
    rw [length]
    exact inv.owned
  · dsimp only
    rw [length]
    exact few

/-- The ids are those of the signals that declare the indices. -/
theorem Shaping.adjusted_indexed (inv : Shaping l decl) (few : l.Fits)
    (adjusted : (dbcMatchTblAdj l.matchTbl l.dbc.siglst).1 = true) :
    ({ l.dbc with siglst := (dbcMatchTblAdj l.matchTbl l.dbc.siglst).2 } : DbcData F).Indexed
      l.matchTbl l.dbc.siglst decl := by
  have length := dbcMatchTblAdj_length l.matchTbl l.dbc.siglst
  have entries := @dbcMatchTblAdj_entries _ l.matchTbl l.dbc.siglst inv.packed adjusted
  have declared : ∀ i k, l.matchTbl[i]? = some (some k) →
      k < (dbcMatchTblAdj l.matchTbl l.dbc.siglst).2.length ∧
        (k, UInt32.ofNat (i + 1)) ∈ decl := by
    intro i k entry
    obtain ⟨mem, -⟩ := (inv.table.entry i k).mp entry
    rw [length]
    exact ⟨inv.declared _ mem, mem⟩
  refine ⟨declared, ?_, fun _ _ _ => inv.table.unique⟩
  intro k sig at_ j v entry nonzero
  obtain ⟨old, index, place, here, refers, positive, got, rfl⟩ := entries at_ entry nonzero
  -- an entry beyond the table would have been refused
  have inside : l.matchTbl[index.toNat - 1]? = some (some place) := by
    rw [List.getD_eq_getElem?_getD] at got
    cases slot : l.matchTbl[index.toNat - 1]? with
    | none =>
      rw [slot] at got
      cases got
    | some entry =>
      rw [slot] at got
      exact congrArg some got
  obtain ⟨small, mem⟩ := declared _ _ inside
  have index_eq : index.toNat - 1 + 1 = index.toNat := by
    have : index.toNat ≠ 0 := fun zero => positive (UInt32.toNat_inj.mp zero)
    omega
  rw [index_eq, UInt32.ofNat_toNat] at mem
  have id_eq : (UInt32.ofNat (place + 1)).toNat = place + 1 := by
    apply UInt32.toNat_ofNat_of_lt'
    have : l.dbc.siglst.length ≤ 1024 := few
    simp only [UInt32.size]
    omega
  dsimp only
  rw [id_eq]
  exact ⟨small, old, index, here, refers, mem⟩

/-- A file that is read without an error gives a table in shape. -/
theorem dbcRead_shaped (file : DbcFile) (inv : Shaping l []) (fits : l.Fits)
    (done : (dbcRead scan clients answers file l).1 = 0) :
    (dbcRead scan clients answers file l).2.dbc.Shaped ∧
      (dbcRead scan clients answers file l).2.dbc.Indexed
        (dbcRead scan clients answers file l).2.matchTbl
        (lineLoop scan clients answers true file.lines l).2.dbc.siglst
        (fileIndices scan clients answers true file.lines l) := by
  have lines := @lineLoop_shaping _ scan clients answers l [] true file.lines inv
  have few : (lineLoop scan clients answers true file.lines l).2.Fits := lineLoop_fits true _ fits
  rw [List.nil_append] at lines
  unfold dbcRead at done ⊢
  generalize lineLoop scan clients answers true file.lines l = result at done lines few ⊢
  generalize fileIndices scan clients answers true file.lines l = decl at lines ⊢
  obtain ⟨ok, l'⟩ := result
  dsimp only at done lines few ⊢
  have bad : ¬ (-1 : Int32) = 0 := by decide
  split at done
  · exact absurd done bad
  next read =>
    rw [if_neg read]
    have inv := lines (by simpa using read)
    split at done
    · exact absurd done bad
    next whole =>
      rw [if_neg whole]
      split at done
      · exact absurd done bad
      next adjusted =>
        rw [if_neg adjusted]
        split at done
        · exact absurd done bad
        next saved =>
          rw [if_neg saved]
          have shaped := inv.adjusted_shaped few
          have indexed := inv.adjusted_indexed few (by simpa using adjusted)
          generalize (dbcMatchTblAdj l'.matchTbl l'.dbc.siglst).2 = siglst at shaped indexed ⊢
          -- resetting the values and naming the file leave the shape
          have same : SameShape { l'.dbc with siglst }
              { dbcResetSignal { l'.dbc with siglst } with
                fpath := file.fpath.take 255, md5 := scan.md5 (file.lines.map (·.text)) } :=
            ⟨(sameShape_reset { l'.dbc with siglst }).msglst,
              (sameShape_reset { l'.dbc with siglst }).siglst⟩
          exact ⟨same.shaped shaped, same.indexed indexed⟩

end Can
