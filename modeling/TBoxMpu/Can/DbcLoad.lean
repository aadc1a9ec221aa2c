import TBoxMpu.Can.DbcCalls
import TBoxMpu.Gb32960.MapWrites

/-!
# Loading a DBC file

`dbc_load_file` fills the spare table while the GB32960 layer fills its spare map; both are
switched at the end, and `can_do_change_dbc` takes over the baud rates. A load that returns an
error changes none of the active tables, except that the index of a fuel-cell temperature is
not checked: its signal id may be written into the active map.
-/

namespace Can

open Gb32960

variable {F : Type}

/-! ### The load -/

/-- The tables of the program. `dbcMem` is the pair `dbc_mem`, and `dbcData` which of them is
active; `gbWarnflag` is the flag of GB32960 for warnings. -/
structure World (F : Type) where
  clients : List Client
  dbcMem : Bool → DbcData F
  dbcData : Option Bool
  gb : GbInfo
  gbWarnflag : UInt32
  canBaud : List Int16
  canDefaultBaud : List Int16

/-- The calls that the GB32960 layer gets. -/
def gbCalls (calls : List Call) : List DbcEvent :=
  calls.filterMap fun c => if c.1 = .gb then some c.2 else none

/-- `dbc_set_signal_flag` -/
def dbcSetSignalFlag (id : Nat) (flag : UInt32) (dbc : DbcData F) : DbcData F :=
  { dbc with siglst := dbc.siglst.modify (id - 1) fun s => { s with usrflags := s.usrflags ||| flag } }

/-- The signals of the warnings of level three are marked, when the map is taken over. -/
def markWarnings (flag : UInt32) (gb gb' : GbInfo) (dbc : DbcData F) : DbcData F :=
  match gb'.inf with
  | none => dbc
  | some b =>
    if gb.inf = some b then dbc
    else
      (List.range 32).foldl (fun dbc (i : Nat) =>
        let id := gb'.words (blockBase b + warn + 64 + i)
        if id ≠ 0 ∧ id.toNat ≤ dbc.siglst.length then dbcSetSignalFlag id.toNat flag dbc else dbc)
        dbc

/-- What the reading of the file gives. -/
def World.read (scan : Scan F) (answers : Answers) (file : DbcFile) (baud : List Int16)
    (w : World F) : Int32 × Loading F :=
  dbcRead scan w.clients answers file
    (Loading.begin (w.dbcMem (spareOf w.dbcData)) baud
      (notifyAll w.clients (.reload file.fpath) []))

/-- The file is found. -/
def DbcFile.Found (file : DbcFile) : Prop := file.fpath ≠ [] ∧ file.opens = true

instance (file : DbcFile) : Decidable file.Found := inferInstanceAs (Decidable (_ ∧ _))

/-- `dbc_load_file`: its result, the baud rates and the tables. -/
def dbcLoadFile (scan : Scan F) (defs : DefineScan) (answers : Answers) (file : DbcFile)
    (baud : List Int16) (w : World F) : Option (Int32 × List Int16 × World F) :=
  if file.Found then do
    let (ret, l) := w.read scan answers file baud
    let spare := spareOf w.dbcData
    -- the clients hear the result before the table is switched
    let calls := notifyAll w.clients (.finished ret) l.calls
    let gb ← gbRun scan defs (gbCalls calls) w.gb
    let table := if ret = 0 then markWarnings w.gbWarnflag w.gb gb l.dbc else l.dbc
    some (ret, l.baud, { w with
      gb := gb
      dbcMem := fun b => if b = spare then table else w.dbcMem b
      -- a failed load leaves the spare table half filled
      dbcData := if ret = 0 then some spare else w.dbcData })
  else some (-1, baud, w)

/-- `can_do_change_dbc` and `can_set_default_baud` for one port. -/
def changeBaud (baud default_ : Int16) : Int16 × Int16 :=
  -- a rate that the file does not name is unset, with its default
  if baud ≥ 0 then (baud, baud) else (-1, if default_ ≠ 0 then 0 else default_)

/-- `can_do_change_dbc`, with the result of the load. -/
def canDoChangeDbc (scan : Scan F) (defs : DefineScan) (answers : Answers) (file : DbcFile)
    (w : World F) : Option (Int32 × World F) :=
  (dbcLoadFile scan defs answers file (List.replicate canMaxPort (-1)) w).map
    fun (ret, baud, w') =>
      if ret ≠ 0 then (ret, w')
      else
        let rates := List.zipWith changeBaud baud w'.canDefaultBaud
        (ret, { w' with canBaud := rates.map (·.1), canDefaultBaud := rates.map (·.2) })

/-! ### What a failed load keeps -/

/-- The active table with its signals' values, the active map and the baud rates. -/
structure SameActive (w w' : World F) : Prop where
  data : w'.dbcData = w.dbcData
  table : ∀ b, w.dbcData = some b → w'.dbcMem b = w.dbcMem b
  inf : w'.gb.inf = w.gb.inf
  map : ∀ b, w.gb.inf = some b → ∀ a, blockBase b ≤ a → a < blockBase b + infoSize →
    w'.gb.words a = w.gb.words a
  baud : w'.canBaud = w.canBaud
  defaultBaud : w'.canDefaultBaud = w.canDefaultBaud

/-- The write for the field stays out of the active map, and in `gb_infmem`. -/
def Harmless (inf : Option Bool) (field : UInt32 × UInt32) : Prop :=
  match surfixEntry field.1 field.2 with
  | .fuelTemp a =>
    writable (blockBase (spareOf inf) + a) = true ∧
      ∀ b, inf = some b → ¬ (blockBase b ≤ blockBase (spareOf inf) + a ∧
        blockBase (spareOf inf) + a < blockBase b + infoSize)
  | _ => True

/-- The fields of signals that the GB32960 layer is given before the load ends. -/
def World.fields (scan : Scan F) (answers : Answers) (file : DbcFile) (w : World F) :
    List (UInt32 × UInt32) :=
  if file.Found then
    (gbCalls (w.read scan answers file (List.replicate canMaxPort (-1))).2.calls).filterMap
      fun evt => match evt with
        | .surfix _ sfx => scan.gbField sfx
        | _ => none
  else []

variable {scan : Scan F} {defs : DefineScan} {answers : Answers} {file : DbcFile} {w : World F}

/-- The rates that `can_do_change_dbc` hands to the load. -/
abbrev noBaud : List Int16 := List.replicate canMaxPort (-1)

/-- The load returns an error. -/
def World.Fails (scan : Scan F) (answers : Answers) (file : DbcFile) (w : World F) : Prop :=
  ¬ file.Found ∨ (w.read scan answers file noBaud).1 ≠ 0

theorem mem_gbCalls {calls : List Call} {evt : DbcEvent} :
    evt ∈ gbCalls calls ↔ (Client.gb, evt) ∈ calls := by
  simp [gbCalls, eq_comm]

theorem gbCalls_append (calls calls' : List Call) :
    gbCalls (calls ++ calls') = gbCalls calls ++ gbCalls calls' :=
  List.filterMap_append

/-- How often the GB32960 layer is registered. -/
def gbCount (clients : List Client) : Nat := (clients.take dbcMaxCallback).count .gb

theorem gbCalls_notifyAll (clients : List Client) (evt : DbcEvent) (calls : List Call) :
    gbCalls (notifyAll clients evt calls) =
      gbCalls calls ++ List.replicate (gbCount clients) evt := by
  unfold notifyAll gbCount
  rw [gbCalls_append]
  congr 1
  induction clients.take dbcMaxCallback with
  | nil => rfl
  | cons c rest ih =>
    cases c with
    | gb => simpa [gbCalls, List.replicate_succ] using ih
    | other n => simpa [gbCalls] using ih

/-- The events of a load for the GB32960 layer: `RELOAD`, those of reading the file, and
`FINISHED`. -/
theorem events_of_read (scan : Scan F) (answers : Answers) (file : DbcFile) (w : World F) :
    ∃ new, (∀ evt ∈ new, evt.Reading) ∧ (gbCount w.clients = 0 → new = []) ∧
      gbCalls (w.read scan answers file noBaud).2.calls =
        List.replicate (gbCount w.clients) (.reload file.fpath) ++ new := by
  have begun : LineTold scan w.clients (notifyAll w.clients (.reload file.fpath) [])
      (Loading.begin (w.dbcMem (spareOf w.dbcData)) noBaud
        (notifyAll w.clients (.reload file.fpath) [])) := told_nothing _
  obtain ⟨new, calls, told, -⟩ := dbcRead_told answers file begun
  refine ⟨gbCalls new, ?_, ?_, ?_⟩
  · intro evt mem
    exact (told _ (mem_gbCalls.mp mem)).2
  · intro unregistered
    apply List.eq_nil_iff_forall_not_mem.mpr
    intro evt mem
    have registered := (told _ (mem_gbCalls.mp mem)).1
    exact List.count_eq_zero.mp unregistered registered
  · unfold World.read
    rw [calls, gbCalls_append]
    congr 1
    exact gbCalls_notifyAll w.clients _ []

/-- All events of a load for the GB32960 layer. -/
def World.events (scan : Scan F) (answers : Answers) (file : DbcFile) (w : World F) :
    List DbcEvent :=
  let (ret, l) := w.read scan answers file noBaud
  gbCalls (notifyAll w.clients (.finished ret) l.calls)

theorem mem_fields {field : UInt32 × UInt32} (found : file.Found) :
    field ∈ w.fields scan answers file ↔ ∃ id sfx,
      .surfix id sfx ∈ gbCalls (w.read scan answers file noBaud).2.calls ∧
        scan.gbField sfx = some field := by
  unfold World.fields
  rw [if_pos found, List.mem_filterMap]
  constructor
  · rintro ⟨evt, mem, given⟩
    cases evt with
    | surfix id sfx => exact ⟨id, sfx, mem, given⟩
    | _ => cases given
  · rintro ⟨id, sfx, mem, given⟩
    exact ⟨_, mem, given⟩

/-- Another contents of the GB32960 maps. -/
def World.withWords (w : World F) (words : Words) : World F :=
  { w with gb := { w.gb with words } }

/-- A load that fails leaves what the events make of the maps, and a filled spare table. -/
theorem canDoChangeDbc_failed (defs : DefineScan) (found : file.Found)
    (failed : (w.read scan answers file noBaud).1 ≠ 0) :
    canDoChangeDbc scan defs answers file w =
      (gbRun scan defs (w.events scan answers file) w.gb).map fun gb =>
        ((w.read scan answers file noBaud).1, { w with
          gb := gb
          dbcMem := fun b => if b = spareOf w.dbcData then
            (w.read scan answers file noBaud).2.dbc else w.dbcMem b }) := by
  unfold canDoChangeDbc dbcLoadFile World.events
  rw [if_pos found]
  generalize w.read scan answers file noBaud = read at *
  obtain ⟨ret, l⟩ := read
  dsimp only at failed ⊢
  rw [Option.bind_eq_bind]
  cases gbRun scan defs (gbCalls (notifyAll w.clients (.finished ret) l.calls)) w.gb with
  | none => rfl
  | some gb => simp [failed]

/-- A load that succeeds switches the table; the map is what the events make of it. -/
theorem canDoChangeDbc_done {ret : Int32} {w' : World F} (found : file.Found)
    (done : (w.read scan answers file noBaud).1 = 0)
    (h : canDoChangeDbc scan defs answers file w = some (ret, w')) :
    gbRun scan defs (w.events scan answers file) w.gb = some w'.gb ∧
      w'.dbcData = some (spareOf w.dbcData) ∧
      w'.dbcMem (spareOf w.dbcData) =
        markWarnings w.gbWarnflag w.gb w'.gb (w.read scan answers file noBaud).2.dbc := by
  unfold canDoChangeDbc dbcLoadFile at h
  rw [if_pos found] at h
  unfold World.events
  generalize w.read scan answers file noBaud = read at *
  obtain ⟨code, l⟩ := read
  dsimp only at done h ⊢
  subst done
  rw [Option.bind_eq_bind] at h
  obtain ⟨⟨_, baud, made⟩, load, h⟩ := Option.map_eq_some_iff.mp h
  obtain ⟨gb, run, load⟩ := Option.bind_eq_some_iff.mp load
  cases load
  cases h
  exact ⟨run, rfl, if_pos rfl⟩

/-- The result of a load is that of the reading, if the file is found. -/
theorem found_of_zero {w' : World F} (h : canDoChangeDbc scan defs answers file w = some (0, w')) :
    file.Found ∧ (w.read scan answers file noBaud).1 = 0 := by
  by_cases found : file.Found
  · refine ⟨found, ?_⟩
    by_cases done : (w.read scan answers file noBaud).1 = 0
    · exact done
    · rw [canDoChangeDbc_failed defs found done] at h
      obtain ⟨gb, -, same⟩ := Option.map_eq_some_iff.mp h
      exact (Prod.mk.inj same).1
  · unfold canDoChangeDbc dbcLoadFile at h
    rw [if_neg found] at h
    obtain ⟨bad, -⟩ := Prod.mk.inj (Option.some.inj h)
    exact absurd bad (by decide)

/-- The events are none at all, or `RELOAD`, then those that read, then `FINISHED`. -/
theorem events_shape (scan : Scan F) (answers : Answers) (file : DbcFile) (w : World F) :
    (w.events scan answers file = [] ∧ gbCalls (w.read scan answers file noBaud).2.calls = []) ∨
      ∃ k new, gbCalls (w.read scan answers file noBaud).2.calls =
          .reload file.fpath :: (List.replicate k (.reload file.fpath) ++ new) ∧
        w.events scan answers file = .reload file.fpath ::
          (List.replicate k (.reload file.fpath) ++ new) ++
            List.replicate (k + 1) (.finished (w.read scan answers file noBaud).1) ∧
        ∀ evt ∈ new, evt.Reading := by
  obtain ⟨new, reading, unregistered, calls⟩ := events_of_read scan answers file w
  unfold World.events
  dsimp only
  rw [gbCalls_notifyAll, calls]
  cases registered : gbCount w.clients with
  | zero =>
    rw [unregistered registered]
    exact .inl ⟨rfl, rfl⟩
  | succ k => exact .inr ⟨k, new, rfl, rfl, reading⟩

theorem spareOf_ne {inf : Option Bool} {b : Bool} (active : inf = some b) : spareOf inf = !b := by
  rw [active]
  rfl

/-- The two blocks have no word in common. -/
theorem outside_of_active {inf : Option Bool} {b : Bool} {a : Int} (active : inf = some b)
    (low : blockBase b ≤ a) (high : a < blockBase b + infoSize) : ¬ InBlock (spareOf inf) a := by
  rw [spareOf_ne active]
  rintro ⟨low', high'⟩
  cases b <;> simp [blockBase, infoSize, infoNext] at * <;> omega

/-- The load of a file that fails, with its result. -/
def World.Keeps (scan : Scan F) (defs : DefineScan) (answers : Answers) (file : DbcFile)
    (w : World F) : Prop :=
  ∃ ret w', canDoChangeDbc scan defs answers file w = some (ret, w') ∧ SameActive w w'

/-- What a failed load keeps is what its events keep of the active map. -/
theorem keeps_iff (defs : DefineScan) (found : file.Found)
    (failed : (w.read scan answers file noBaud).1 ≠ 0) :
    w.Keeps scan defs answers file ↔
      ∃ g, gbRun scan defs (w.events scan answers file) w.gb = some g ∧ g.inf = w.gb.inf ∧
        ∀ b, w.gb.inf = some b → ∀ a, blockBase b ≤ a → a < blockBase b + infoSize →
          g.words a = w.gb.words a := by
  unfold World.Keeps
  rw [canDoChangeDbc_failed defs found failed]
  constructor
  · rintro ⟨ret, w', load, same⟩
    obtain ⟨g, run, made⟩ := Option.map_eq_some_iff.mp load
    obtain ⟨-, rfl⟩ := Prod.mk.inj made
    exact ⟨g, run, same.inf, same.map⟩
  · rintro ⟨g, run, inf, map⟩
    refine ⟨_, _, Option.map_eq_some_iff.mpr ⟨g, run, rfl⟩, ⟨rfl, ?_, inf, map, rfl, rfl⟩⟩
    intro b active
    have other : b ≠ spareOf w.dbcData := by
      rw [spareOf_ne active]
      cases b <;> decide
    exact if_neg other

/-- After `RELOAD` the spare block is cleared, and being filled. -/
def reloaded (gb : GbInfo) : GbInfo :=
  { gb with rld := some (spareOf gb.inf), words := reloadWords (spareOf gb.inf) gb.words }

theorem reloaded_filling (gb : GbInfo) : (reloaded gb).Filling :=
  .inr rfl

theorem gbRun_reload (evts : List DbcEvent) (gb : GbInfo) :
    gbRun scan defs (.reload file.fpath :: evts) gb = gbRun scan defs evts (reloaded gb) := by
  rw [gbRun_cons]
  rfl

/-- `RELOAD` for other registrations, then what is read: nothing of it ends the load. -/
theorem notFinished_early (file : DbcFile) (k : Nat) {new : List DbcEvent} (reading : ∀ evt ∈ new, evt.Reading) :
    ∀ evt ∈ List.replicate k (DbcEvent.reload file.fpath) ++ new, ∀ ret, evt ≠ .finished ret := by
  intro evt mem ret same
  rcases List.mem_append.mp mem with mem | mem
  · rw [List.eq_of_mem_replicate mem] at same
    cases same
  · exact (same ▸ reading evt mem : DbcEvent.Reading (.finished ret))

/-- No event of a load that fails switches the maps. -/
theorem notSwitched {early : List DbcEvent} {n : Nat} {ret : Int32} (bad : ret ≠ 0)
    (reading : ∀ evt ∈ early, ∀ ret, evt ≠ .finished ret) :
    ∀ evt ∈ early ++ List.replicate n (.finished ret), evt ≠ .finished 0 := by
  intro evt mem
  rcases List.mem_append.mp mem with mem | mem
  · exact reading evt mem 0
  · rw [List.eq_of_mem_replicate mem]
    exact fun same => bad (DbcEvent.finished.inj same)

/-- Fields that are harmless keep the active map. -/
theorem keeps_of_harmless (defs : DefineScan) (found : file.Found)
    (failed : (w.read scan answers file noBaud).1 ≠ 0)
    (harmless : ∀ field ∈ w.fields scan answers file, Harmless w.gb.inf field) :
    w.Keeps scan defs answers file := by
  apply (keeps_iff defs found failed).mpr
  rcases events_shape scan answers file w with ⟨nothing, -⟩ | ⟨k, new, calls, events, reading⟩
  · rw [nothing]
    exact ⟨w.gb, rfl, rfl, fun _ _ _ _ _ => rfl⟩
  · rw [events, List.cons_append, gbRun_reload]
    have early := notFinished_early file k reading
    generalize fin : List.replicate (k + 1)
      (DbcEvent.finished (w.read scan answers file noBaud).1) = last
    have failing : ∀ evt ∈ List.replicate k (DbcEvent.reload file.fpath) ++ new ++ last,
        evt ≠ .finished 0 := fin ▸ notSwitched failed early
    -- every field that a suffix has is one of the load's
    have field_of : ∀ id sfx, .surfix id sfx ∈ List.replicate k (DbcEvent.reload file.fpath) ++
        new ++ last → ∀ field, scan.gbField sfx = some field → Harmless w.gb.inf field := by
      intro id sfx mem field given
      apply harmless
      refine (mem_fields found).mpr ⟨id, sfx, ?_, given⟩
      rw [calls]
      rcases List.mem_append.mp mem with mem | mem
      · exact List.mem_cons_of_mem _ mem
      · rw [← fin] at mem
        exact nomatch List.eq_of_mem_replicate mem
    have reach : ∀ evt ∈ List.replicate k (DbcEvent.reload file.fpath) ++ new ++ last,
        Reaches scan (spareOf (reloaded w.gb).inf) evt := by
      rintro _ mem id sfx field a rfl given at_
      have safe := field_of id sfx mem field given
      unfold Harmless at safe
      rw [at_] at safe
      exact safe.1
    have changed : ∃ g, gbRun scan defs (List.replicate k (DbcEvent.reload file.fpath) ++ new ++
        last) (reloaded w.gb) = some g ∧ g.inf = (reloaded w.gb).inf ∧ _ :=
      gbRun_changes (reloaded_filling w.gb) failing reach
    obtain ⟨g, run, inf, changes⟩ := changed
    refine ⟨g, run, inf, fun b active a low high => ?_⟩
    have outside := outside_of_active active low high
    refine (changes a ?_).trans (reloadWords_changes _ _ a outside)
    rintro (inside | ⟨evt, mem, id, sfx, field, rfl, given, at_⟩)
    · exact outside inside
    · have safe := field_of id sfx mem field given
      unfold Harmless at safe
      rw [at_] at safe
      apply safe.2 b active
      have same : blockBase (spareOf w.gb.inf) + (a - blockBase (spareOf w.gb.inf)) = a := by
        omega
      rw [show (reloaded w.gb).inf = w.gb.inf from rfl, same]
      exact ⟨low, high⟩

/-- A field of a load that keeps the active map can be written. -/
theorem reaches_of_run {early later : List DbcEvent} {evt : DbcEvent} {gb g : GbInfo}
    (reading : ∀ e ∈ early, ∀ ret, e ≠ .finished ret)
    (run : gbRun scan defs (early ++ evt :: later) (reloaded gb) = some g) :
    Reaches scan (spareOf gb.inf) evt := by
  rw [gbRun_append] at run
  obtain ⟨m, first, run⟩ := Option.bind_eq_some_iff.mp run
  obtain ⟨inf, filling, goes⟩ :=
    gbRun_filling (reloaded_filling gb) (fun e mem => reading e mem 0) first
  rw [gbRun_cons] at run
  obtain ⟨n, second, -⟩ := Option.bind_eq_some_iff.mp run
  have reaches := gbDataDbcCb_reaches filling (goes reading rfl) second
  rw [inf] at reaches
  exact reaches

/-- Where a load keeps the active map whatever the maps hold, its fields are harmless. -/
theorem harmless_of_keeps (found : file.Found)
    (failed : (w.read scan answers file noBaud).1 ≠ 0)
    (keeps : ∀ words, (w.withWords words).Keeps scan defs answers file) :
    ∀ field ∈ w.fields scan answers file, Harmless w.gb.inf field := by
  intro field mem
  obtain ⟨id, sfx, mem, given⟩ := (mem_fields found).mp mem
  rcases events_shape scan answers file w with ⟨-, nothing⟩ | ⟨k, new, calls, events, reading⟩
  · rw [nothing] at mem
    cases mem
  · rw [calls] at mem
    have mem : DbcEvent.surfix id sfx ∈ List.replicate k (DbcEvent.reload file.fpath) ++ new := by
      cases mem with
      | tail _ mem => exact mem
    have early := notFinished_early file k reading
    have failing := notSwitched (n := k + 1) failed early
    rw [List.cons_append] at events
    -- the event of the field, and what comes before it
    obtain ⟨before, after, split⟩ := List.append_of_mem mem
    rw [split] at events early failing
    have run : ∀ words, ∃ g, gbRun scan defs (before ++ .surfix id sfx :: (after ++
          List.replicate (k + 1) (.finished (w.read scan answers file noBaud).1)))
          (reloaded { w.gb with words }) = some g ∧
        ∀ b, w.gb.inf = some b → ∀ a, blockBase b ≤ a → a < blockBase b + infoSize →
          g.words a = words a := by
      intro words
      obtain ⟨g, run, -, map⟩ := (keeps_iff (w := w.withWords words) defs found failed).mp (keeps words)
      rw [show (w.withWords words).events scan answers file = w.events scan answers file from rfl,
        events, gbRun_reload, List.append_assoc] at run
      exact ⟨g, run, map⟩
    have calm : ∀ e ∈ before, ∀ ret, e ≠ .finished ret :=
      fun e mem => early e (List.mem_append_left _ mem)
    unfold Harmless
    split
    next a at_ =>
      obtain ⟨g, first, same⟩ := run w.gb.words
      refine ⟨reaches_of_run calm first id sfx field a rfl given at_, ?_⟩
      rintro b active ⟨low, high⟩
      -- with another value of the word that is hit, the load ends with the same maps
      generalize hit : blockBase (spareOf w.gb.inf) + a = x at low high
      obtain ⟨g', second, same'⟩ :=
        run fun c => if c = x then w.gb.words c + 1 else w.gb.words c
      have outside := outside_of_active active low high
      have agree : AgreeOff x (reloaded { w.gb with words := w.gb.words })
          (reloaded { w.gb with words := fun c => if c = x then w.gb.words c + 1 else w.gb.words c }) :=
        ⟨rfl, rfl, reloadWords_agree _ fun c other => if_neg other⟩
      have hits : Hits scan (spareOf w.gb.inf) (.surfix id sfx) x := by
        refine ⟨id, sfx, field, rfl, given, at_.trans (congrArg Entry.fuelTemp ?_)⟩
        omega
      have equal := gbRun_hits (reloaded_filling _) rfl calm
        (fun e mem => failing e (by
          rw [List.append_assoc]
          exact List.mem_append_right _ mem))
        outside hits agree first
      have one : g.words x = w.gb.words x := same b active x low high
      have two : g'.words x = w.gb.words x + 1 := (same' b active x low high).trans (if_pos rfl)
      obtain rfl : g = g' := Option.some.inj (equal.symm.trans second)
      have zero : w.gb.words x + 1 ≠ w.gb.words x := by
        intro eq
        have := congrArg UInt32.toNat eq
        rw [UInt32.toNat_add] at this
        have := (w.gb.words x).toNat_lt
        simp at *
      exact zero (two.symm.trans one)
    · trivial

def text (s : String) : Bytes := s.toList.map fun c => UInt8.ofNat c.toNat

def versionLine : FileLine := ⟨text "VERSION \"\"\n", []⟩

def msgLine : FileLine := ⟨text "BO_ 291 VCU: 8 VCU\n", []⟩

/-- A signal for the first place but one of the vehicle's signals. -/
def vehicleLine : FileLine := ⟨text " SG_ V_G1001 : 0|8@1+ (1,0) [0|255] \"\" VCU\n", []⟩

/-- A signal for the fuel-cell temperature with the index 2022. -/
def temperatureLine : FileLine := ⟨text " SG_ T_GA8E6 : 0|8@1+ (1,0) [0|255] \"\" VCU\n", []⟩

def brokenLine : FileLine := ⟨text "BO_\n", []⟩

def isBlank (c : UInt8) : Bool := c = 0x20 || c = 0x0A

/-- What the formats read of these lines. -/
def sampleScan : Scan Int where
  zero := 0
  md5 _ := [132, 201, 154, 61, 153, 203, 124, 231, 69, 186, 223, 209, 240, 238, 58, 190]
  version line := text "VERSION" <+: line
  getKwd line :=
    let word := (line.dropWhile isBlank).takeWhile fun c => !isBlank c
    if word = [] then none else some (word.take 7)
  getMsg line := if line = msgLine.text then some (291, text "VCU") else none
  getSig line :=
    let fields name := some ⟨name, 0, 8, 0x31, 0x2B, 1, 0, 0, 255, text "\"\""⟩
    if line = vehicleLine.text then fields (text "V_G1001")
    else if line = temperatureLine.text then fields (text "T_GA8E6")
    else none
  hsBaudrate _ := none
  msBaudrate _ := none
  lsBaudrate _ := none
  baudrate _ := none
  getDef _ := none
  sfxPort _ := none
  sfxMatch _ := none
  sfxIndex _ := none
  gbField sfx :=
    if text "G1001" <+: sfx then some (0x1, 0x001)
    else if text "GA8E6" <+: sfx then some (0xA, 0x8E6)
    else none

def noDefine : DefineScan := ⟨fun _ => none, nofun⟩

def goodFile : DbcFile :=
  ⟨text "/usrdata/a.dbc", true, [versionLine, msgLine, vehicleLine], true, true⟩

def brokenFile : DbcFile :=
  ⟨text "/usrdata/b.dbc", true, [versionLine, msgLine, vehicleLine, brokenLine], true, true⟩

def temperatureFile : DbcFile :=
  ⟨text "/usrdata/c.dbc", true, [versionLine, msgLine, temperatureLine, brokenLine], true, true⟩

/-- No file is loaded; the GB32960 layer is the only client. -/
def unloaded : World Int where
  clients := [.gb]
  dbcMem _ := ⟨[], [], [], []⟩
  dbcData := none
  gb := ⟨fun _ => 0, none, none⟩
  gbWarnflag := 2
  canBaud := List.replicate canMaxPort (-1)
  canDefaultBaud := List.replicate canMaxPort 0

/-- The load of `file`, with what was there before it. -/
def load (file : DbcFile) (w : World Int) : Option (World Int × Int32 × World Int) :=
  (canDoChangeDbc sampleScan noDefine (fun _ => 0) file w).map fun (ret, w') => (w, ret, w')

end Can
