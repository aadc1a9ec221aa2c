import TBoxMpu.Can.Dbc

/-!
# What a file tells the clients

Reading the lines of a file adds calls for suffixes and definitions to those made before, for
registered clients only, and each field that the GB32960 layer is given is one of the
signal's.
-/

namespace Can

variable {F : Type}

/-- The calls while the lines are read. -/
def DbcEvent.Reading : DbcEvent → Prop
  | .surfix _ _ | .define _ => True
  | .reload _ | .finished _ => False

/-- The signal with this id was defined with the field. -/
def Declared (siglst : List (DbcSig F)) (id : Nat) (field : UInt32 × UInt32) : Prop :=
  0 < id ∧ ∃ sig, siglst[id - 1]? = some sig ∧ field ∈ sig.gbFields

/-- Every field that was given to the GB32960 layer is declared by its signal. -/
def Recorded (scan : Scan F) (calls : List Call) (siglst : List (DbcSig F)) : Prop :=
  ∀ id sfx field, (Client.gb, DbcEvent.surfix id sfx) ∈ calls → scan.gbField sfx = some field →
    Declared siglst id field

/-- The calls `calls` are `start` and then those of reading `siglst`. -/
def Told (scan : Scan F) (clients : List Client) (start calls : List Call)
    (siglst : List (DbcSig F)) : Prop :=
  ∃ new, calls = start ++ new ∧
    (∀ c ∈ new, c.1 ∈ clients.take dbcMaxCallback ∧ c.2.Reading) ∧ Recorded scan new siglst

variable {scan : Scan F} {clients : List Client} {answers : Answers} {start calls : List Call}
  {siglst siglst' : List (DbcSig F)}

theorem told_nothing (siglst : List (DbcSig F)) : Told scan clients start start siglst :=
  ⟨[], (List.append_nil _).symm, nofun, nofun⟩

/-- A table with the same fields in the same places will do. -/
theorem Told.retable (told : Told scan clients start calls siglst)
    (kept : ∀ (k : Nat) (sig : DbcSig F), siglst[k]? = some sig →
      ∃ sig', siglst'[k]? = some sig' ∧ sig'.gbFields = sig.gbFields) :
    Told scan clients start calls siglst' := by
  obtain ⟨new, rfl, reading, recorded⟩ := told
  refine ⟨new, rfl, reading, ?_⟩
  intro id sfx field call given
  obtain ⟨positive, sig, at_, declared⟩ := recorded id sfx field call given
  obtain ⟨sig', at', same⟩ := kept _ sig at_
  exact ⟨positive, sig', at', same ▸ declared⟩

/-- The last signal may change, except for its fields. -/
theorem Told.resign {sig sig' : DbcSig F} (told : Told scan clients start calls (siglst ++ [sig]))
    (fields : sig'.gbFields = sig.gbFields) :
    Told scan clients start calls (siglst ++ [sig']) := by
  apply told.retable
  intro k old at_
  by_cases inside : k < siglst.length
  · rw [List.getElem?_append_left inside] at at_ ⊢
    exact ⟨old, at_, rfl⟩
  · rw [List.getElem?_append_right (by omega)] at at_ ⊢
    cases place : k - siglst.length with
    | zero =>
      obtain rfl : sig = old := by simpa [place] using at_
      exact ⟨sig', rfl, fields⟩
    | succ n => simp [place] at at_

theorem Told.define (told : Told scan clients start calls siglst) (line : Bytes) :
    Told scan clients start (notifyAll clients (.define line) calls) siglst := by
  obtain ⟨new, rfl, reading, recorded⟩ := told
  refine ⟨new ++ (clients.take dbcMaxCallback).map fun c => (c, .define line), ?_, ?_, ?_⟩
  · exact List.append_assoc _ _ _
  · intro c mem
    rcases List.mem_append.mp mem with mem | mem
    · exact reading c mem
    · obtain ⟨client, registered, rfl⟩ := List.mem_map.mp mem
      exact ⟨registered, trivial⟩
  · intro id sfx field call given
    rcases List.mem_append.mp call with call | call
    · exact recorded id sfx field call given
    · obtain ⟨client, -, same⟩ := List.mem_map.mp call
      cases same

/-! ### One suffix -/

/-- While the suffix of the signal at place `siglst.length` is read. -/
def SfxTold (scan : Scan F) (clients : List Client) (start : List Call)
    (siglst : List (DbcSig F)) (s : SfxState F) : Prop :=
  Told scan clients start s.calls (siglst ++ [s.sig])

theorem Told.surfix {c : Client} {sfx : Bytes} {sig sig' : DbcSig F}
    (told : Told scan clients start calls (siglst ++ [sig]))
    (registered : c ∈ clients.take dbcMaxCallback)
    (grown : ∀ field ∈ sig.gbFields, field ∈ sig'.gbFields)
    (given : ∀ field, c = .gb → scan.gbField sfx = some field → field ∈ sig'.gbFields) :
    Told scan clients start (calls ++ [(c, .surfix (siglst.length + 1) sfx)])
      (siglst ++ [sig']) := by
  obtain ⟨new, rfl, reading, recorded⟩ := told
  refine ⟨new ++ [(c, .surfix (siglst.length + 1) sfx)], List.append_assoc _ _ _, ?_, ?_⟩
  · intro d mem
    rcases List.mem_append.mp mem with mem | mem
    · exact reading d mem
    · rw [List.mem_singleton.mp mem]
      exact ⟨registered, trivial⟩
  · intro id sfx' field call scanned
    rcases List.mem_append.mp call with call | call
    · obtain ⟨positive, old, at_, declared⟩ := recorded id sfx' field call scanned
      refine ⟨positive, ?_⟩
      -- an earlier signal, or the one that is being read
      by_cases inside : id - 1 < siglst.length
      · rw [List.getElem?_append_left inside] at at_ ⊢
        exact ⟨old, at_, declared⟩
      · rw [List.getElem?_append_right (by omega)] at at_ ⊢
        obtain ⟨last, rfl⟩ : id - 1 - siglst.length = 0 ∧ old = sig := by
          cases place : id - 1 - siglst.length with
          | zero => simpa [place, eq_comm] using at_
          | succ n => simp [place] at at_
        rw [last]
        exact ⟨sig', rfl, grown field declared⟩
    · cases List.mem_singleton.mp call
      refine ⟨Nat.succ_pos _, sig', ?_, given field rfl scanned⟩
      simp

theorem askClients_told {sfx : Bytes} {asked : List Client} {ret lastret : Int32}
    {s : SfxState F} (registered : ∀ c ∈ asked, c ∈ clients.take dbcMaxCallback)
    (told : SfxTold scan clients start siglst s) :
    SfxTold scan clients start siglst
      (askClients scan answers (siglst.length + 1) sfx asked ret lastret s).2.2.2 := by
  induction asked generalizing ret lastret s with
  | nil => exact told
  | cons c rest ih =>
    have later : ∀ d ∈ rest, d ∈ clients.take dbcMaxCallback :=
      fun d mem => registered d (List.mem_cons_of_mem c mem)
    have step : SfxTold scan clients start siglst (s.ask scan (siglst.length + 1) sfx c) := by
      refine Told.surfix told (registered c (List.mem_cons_self ..)) ?_ ?_
      · intro field mem
        exact List.mem_append_left _ mem
      · rintro field rfl scanned
        simp [SfxState.ask, scanned]
    unfold askClients
    dsimp only
    split
    · -- the answers may disagree, which ends the asking
      split
      · exact step
      · exact ih later step
    · exact ih later step

variable (answers)

theorem sfxStep_told (p : Bytes) {s : SfxState F} (told : SfxTold scan clients start siglst s) :
    SfxTold scan clients start siglst
      (sfxStep scan clients answers siglst.length p s).2 := by
  have same : ∀ sig : DbcSig F, sig.gbFields = s.sig.gbFields →
      Told scan clients start s.calls (siglst ++ [sig]) := fun _ fields => Told.resign told fields
  unfold sfxStep
  split
  · -- the port
    split
    · exact told
    · split
      · exact told
      · exact same _ rfl
  · split
    · -- the mark of a bit
      exact same _ rfl
    · split
      · -- the conditions
        split
        · exact told
        · split
          · exact told
          · split
            · exact told
            · exact same _ rfl
      · split
        · -- the index, which the match table takes or refuses
          split
          · exact told
          · split
            · exact told
            · exact same _ rfl
        · -- the clients
          have asked : SfxTold scan clients start siglst (askClients scan answers
              (siglst.length + 1) p (clients.take dbcMaxCallback) 0 0 s).2.2.2 :=
            askClients_told (fun _ mem => mem) told
          dsimp only
          split
          · exact asked
          · exact asked

theorem sfxLoop_told {n : Nat} {p : Bytes} {s : SfxState F}
    (told : SfxTold scan clients start siglst s) :
    SfxTold scan clients start siglst (sfxLoop scan clients answers siglst.length n p s).2 := by
  induction n generalizing p s with
  | zero => exact told
  | succ n ih =>
    have step := sfxStep_told answers p told
    unfold sfxLoop
    split
    · exact told
    · cases turn : sfxStep scan clients answers siglst.length p s with
      | mk next s' =>
        rw [turn] at step
        cases next with
        | none => exact step
        | some p' => exact ih step

/-! ### Lines -/

/-- What is told while the lines of a file are read. -/
def LineTold (scan : Scan F) (clients : List Client) (start : List Call) (l : Loading F) : Prop :=
  Told scan clients start l.calls l.dbc.siglst

variable {l : Loading F}

theorem dbcParseMsg_told {line : Bytes} (told : LineTold scan clients start l) :
    LineTold scan clients start (dbcParseMsg scan line l).2 := by
  unfold dbcParseMsg
  split
  · exact told
  · split
    · exact told
    · split
      · exact told
      · split
        · exact told
        · exact told

/-- A suffix is read for a signal that is new at the end of the table. -/
theorem dbcParseSigSuffix_told (sfx : Option Bytes) (stack : Bytes) {s : SfxState F}
    (told : SfxTold scan clients start siglst s) :
    SfxTold scan clients start siglst
      (dbcParseSigSuffix scan clients answers siglst.length sfx stack s).2 := by
  unfold dbcParseSigSuffix
  split
  · exact told
  · exact sfxLoop_told answers (told.resign rfl)

theorem dbcParseSig_told (line stack : Bytes) (m : Nat) (told : LineTold scan clients start l) :
    LineTold scan clients start (dbcParseSig scan clients answers line stack m l).2 := by
  have fresh : SfxTold scan clients start l.dbc.siglst
      ⟨.cleared scan.zero, 0, l.matchTbl, l.calls⟩ := by
    apply Told.retable told
    intro k old at_
    obtain ⟨inside, -⟩ := List.getElem?_eq_some_iff.mp at_
    exact ⟨old, (List.getElem?_append_left inside).trans at_, rfl⟩
  unfold dbcParseSig
  split
  · exact told
  · split
    · exact told
    next fields _ _ =>
      dsimp only
      split
      · exact told
      · split
        · -- the place of the new signal is the end of the table
          have suffix := dbcParseSigSuffix_told answers (dbcGetSigSuffix fields.name).2 stack fresh
          split
          · exact Told.resign suffix rfl
          · exact suffix
        · exact told

theorem dbcParseDef_told {line : Bytes} (told : LineTold scan clients start l) :
    LineTold scan clients start (dbcParseDef scan clients line l) := by
  unfold dbcParseDef
  split
  · exact told
  · split
    · exact told
    · split
      · split
        · apply Told.retable told
          intro k old at_
          rw [List.getElem?_modify, at_]
          exact ⟨_, rfl, by split <;> rfl⟩
        · exact told
      · -- any other line is told to all
        exact Told.define told line

theorem lineStep_told (first : Bool) (line : FileLine) (told : LineTold scan clients start l) :
    LineTold scan clients start (lineStep scan clients answers first line l).2 := by
  unfold lineStep
  split
  · exact told
  · split
    · exact told
    · split
      · exact dbcParseMsg_told told
      · split
        · split
          · exact told
          · exact dbcParseSig_told answers _ _ _ told
        · split
          · exact dbcParseDef_told told
          · exact told

theorem lineLoop_told (first : Bool) (lines : List FileLine)
    (told : LineTold scan clients start l) :
    LineTold scan clients start (lineLoop scan clients answers first lines l).2 := by
  induction lines generalizing first l with
  | nil => exact told
  | cons line rest ih =>
    have step := lineStep_told answers first line told
    unfold lineLoop
    cases turn : lineStep scan clients answers first line l with
    | mk ok l' =>
      rw [turn] at step
      cases ok with
      | false => exact step
      | true => exact ih false step

/-! ### The whole file -/

theorem dbcMatchTblAdj_fields {tbl : List (Option Nat)} {k : Nat} {sig : DbcSig F}
    (at_ : siglst[k]? = some sig) :
    ∃ sig', (dbcMatchTblAdj tbl siglst).2[k]? = some sig' ∧ sig'.gbFields = sig.gbFields := by
  induction siglst generalizing k with
  | nil => simp at at_
  | cons first rest ih =>
    unfold dbcMatchTblAdj
    dsimp only
    cases k with
    | zero =>
      obtain rfl : first = sig := by simpa using at_
      split
      · exact ⟨_, rfl, rfl⟩
      · exact ⟨_, rfl, rfl⟩
    -- the adjustment stops at a signal with an unknown index
    | succ k =>
      split
      · exact ih (by simpa using at_)
      · exact ⟨sig, by simpa using at_, rfl⟩

/-- Reading a file tells the clients what the signals declare, and nothing else. -/
theorem dbcRead_told (file : DbcFile) (told : LineTold scan clients start l) :
    LineTold scan clients start (dbcRead scan clients answers file l).2 := by
  have lines := lineLoop_told answers true file.lines told
  have adjusted : ∀ tbl, Told scan clients start
      (lineLoop scan clients answers true file.lines l).2.calls
      (dbcMatchTblAdj tbl (lineLoop scan clients answers true file.lines l).2.dbc.siglst).2 :=
    fun _ => Told.retable lines fun _ _ at_ => dbcMatchTblAdj_fields at_
  unfold dbcRead
  dsimp only
  split
  · exact lines
  · split
    · exact lines
    · split
      · exact adjusted _
      · split
        · exact adjusted _
        · apply Told.retable (adjusted _)
          intro k sig at_
          refine ⟨{ sig with value := sig.init, lastv := sig.init }, ?_, rfl⟩
          simp only [dbcResetSignal, List.getElem?_map]
          rw [at_]
          rfl

end Can
