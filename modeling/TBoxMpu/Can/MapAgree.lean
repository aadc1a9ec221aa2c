import TBoxMpu.Can.TableShape
import TBoxMpu.Gb32960.SignalPlaces
import TBoxMpu.Lib.Runs

/-!
# The active table and the active map

After loads of DBC files, whether they succeed or fail, the ids in the active map of GB32960 are
those that the active table gives to the signals with the suffixes for their places. This is so
unless an index leaves its array, or a file is read that leaves gaps among the battery's cells or
temperatures: then the table is switched and the map is not.
-/

namespace Can

open Gb32960 Runs

variable {F : Type} {scan : Scan F} {defs : DefineScan} {clients : List Client}
  {answers : Answers} {file : DbcFile} {w w' : World F}

/-! ### The map after a file was read -/

/-- The fields that the signals ask for, with the signals' ids. -/
def gbAsks (scan : Scan F) (evts : List DbcEvent) : List (Nat × UInt32 × UInt32) :=
  evts.filterMap fun evt => match evt with
    | .surfix id sfx => (scan.gbField sfx).map (id, ·)
    | _ => none

theorem mem_gbAsks {evts : List DbcEvent} {id : Nat} {field : UInt32 × UInt32} :
    (id, field) ∈ gbAsks scan evts ↔
      ∃ sfx, .surfix id sfx ∈ evts ∧ scan.gbField sfx = some field := by
  unfold gbAsks
  rw [List.mem_filterMap]
  constructor
  · rintro ⟨evt, mem, made⟩
    cases evt with
    | surfix id' sfx =>
      obtain ⟨field', given, same⟩ := Option.map_eq_some_iff.mp made
      cases same
      exact ⟨sfx, mem, given⟩
    | _ => cases made
  · rintro ⟨sfx, mem, given⟩
    exact ⟨_, mem, Option.map_eq_some_iff.mpr ⟨field, given, rfl⟩⟩

/-- The events give the map an id that is not zero, and indices in their tables. -/
structure Tame (scan : Scan F) (defs : DefineScan) (evts : List DbcEvent) : Prop where
  asks : ∀ ask ∈ gbAsks scan evts, UInt32.ofNat ask.1 ≠ 0 ∧
    (surfixEntry ask.2.1 ask.2.2).InTable
  defines : ∀ line, .define line ∈ evts → ∀ d, defs.define line = some d → d.InTable

/-- The block that is loaded is filled from these fields. -/
structure Loads (b : Bool) (asks : List (Nat × UInt32 × UInt32)) (gb : GbInfo) : Prop where
  rld : gb.rld = some b
  filled : Filled (blockBase b) asks gb.words

variable {b : Bool} {asks : List (Nat × UInt32 × UInt32)} {gb g : GbInfo} {evt : DbcEvent}
  {evts : List DbcEvent}

theorem gbDataDbcCb_loads (loads : Loads b asks gb) (reading : evt.Reading)
    (tame : Tame scan defs [evt]) (h : gbDataDbcCb scan defs evt gb = some g) :
    g.inf = gb.inf ∧ Loads b (asks ++ gbAsks scan [evt]) g := by
  cases evt with
  | reload fpath => exact reading.elim
  | finished ret => exact reading.elim
  | define line =>
    have none : gbAsks scan [.define line] = [] := rfl
    rw [none, List.append_nil]
    unfold gbDataDbcCb at h
    dsimp only at h
    rw [loads.rld] at h
    cases read : defs.define line with
    | none =>
      rw [read] at h
      cases h
      exact ⟨rfl, loads⟩
    | some d =>
      rw [read] at h
      obtain ⟨words, done, rfl⟩ := Option.map_eq_some_iff.mp h
      have inTable := tame.defines line (List.mem_singleton.mpr rfl) d read
      -- a definition in its table writes none of the words watched
      refine ⟨rfl, rfl, loads.filled.of_same fun a watched => ?_⟩
      exact gbDataParseDefine_watched (defs.inRange line d read) inTable done watched
  | surfix id sfx =>
    unfold gbDataDbcCb at h
    dsimp only at h
    rw [loads.rld] at h
    cases given : scan.gbField sfx with
    | none =>
      have none : gbAsks scan [.surfix id sfx] = [] := by
        simp [gbAsks, given]
      rw [none, List.append_nil]
      rw [given] at h
      cases h
      exact ⟨rfl, loads⟩
    | some field =>
      have one : gbAsks scan [.surfix id sfx] = [(id, field)] := by
        simp [gbAsks, given]
      have asked := tame.asks (id, field) (one ▸ List.mem_singleton.mpr rfl)
      rw [given] at h
      obtain ⟨words, done, rfl⟩ := Option.map_eq_some_iff.mp h
      rw [one]
      exact ⟨rfl, rfl,
        loads.filled.written asked.1 (gbDataParseSurfix_written asked.2 done)⟩

theorem gbAsks_cons (evt : DbcEvent) (rest : List DbcEvent) :
    gbAsks scan (evt :: rest) = gbAsks scan [evt] ++ gbAsks scan rest :=
  List.filterMap_append (l := [evt])

/-- The first event, and those that follow. -/
theorem Tame.of_cons {rest : List DbcEvent} (tame : Tame scan defs (evt :: rest)) :
    Tame scan defs [evt] ∧ Tame scan defs rest := by
  have split : gbAsks scan (evt :: rest) = _ := gbAsks_cons evt rest
  constructor
  · refine ⟨fun ask mem => tame.asks ask (split ▸ List.mem_append_left _ mem), ?_⟩
    intro line mem
    exact tame.defines line (List.mem_singleton.mp mem ▸ List.mem_cons_self ..)
  · exact ⟨fun ask mem => tame.asks ask (split ▸ List.mem_append_right _ mem),
      fun line mem => tame.defines line (List.mem_cons_of_mem _ mem)⟩

theorem gbRun_loads (loads : Loads b asks gb) (reading : ∀ evt ∈ evts, evt.Reading)
    (tame : Tame scan defs evts) (h : gbRun scan defs evts gb = some g) :
    g.inf = gb.inf ∧ Loads b (asks ++ gbAsks scan evts) g := by
  induction evts generalizing asks gb with
  | nil =>
    cases h
    exact ⟨rfl, (List.append_nil asks).symm ▸ loads⟩
  | cons evt rest ih =>
    rw [gbRun_cons] at h
    obtain ⟨m, first, h⟩ := Option.bind_eq_some_iff.mp h
    obtain ⟨now, later⟩ := tame.of_cons
    obtain ⟨inf, loads⟩ := gbDataDbcCb_loads loads (reading evt (List.mem_cons_self ..)) now first
    obtain ⟨inf', loads⟩ := ih loads (fun e mem => reading e (List.mem_cons_of_mem _ mem)) later h
    rw [gbAsks_cons, ← List.append_assoc]
    exact ⟨inf'.trans inf, loads⟩

/-- `RELOAD` for each registration leaves the spare block empty. -/
theorem gbRun_reloads (scan : Scan F) (defs : DefineScan) (loads : Loads (spareOf gb.inf) [] gb)
    (fpath : Bytes) (k : Nat) :
    ∃ g, gbRun scan defs (List.replicate k (.reload fpath)) gb = some g ∧ g.inf = gb.inf ∧
      Loads (spareOf gb.inf) [] g := by
  induction k generalizing gb with
  | zero => exact ⟨gb, rfl, rfl, loads⟩
  | succ k ih =>
    have again : Loads (spareOf (reloaded gb).inf) [] (reloaded gb) := ⟨rfl, filled_reload _ _⟩
    obtain ⟨g, run, inf, loads⟩ := ih again
    refine ⟨g, ?_, inf, loads⟩
    rw [List.replicate_succ, gbRun_cons]
    exact run

/-- An event that changes nothing may come again. -/
theorem gbRun_fixed (same : gbDataDbcCb scan defs evt gb = some gb) (n : Nat) :
    gbRun scan defs (List.replicate n evt) gb = some gb := by
  induction n with
  | zero => rfl
  | succ n ih =>
    rw [List.replicate_succ, gbRun_cons, same]
    exact ih

/-- `FINISHED` takes the loaded map over for the active one, or leaves both if there are gaps. -/
theorem gbRun_finished (loads : Loads b asks gb) (k : Nat)
    (h : gbRun scan defs (List.replicate (k + 1) (.finished 0)) gb = some g) :
    g.words = gb.words ∧
      (g.inf = some b ∨ g.inf = gb.inf ∧ ¬ Gapless (asks.map (·.2))) := by
  by_cases complete :
      allDefined gb.words (blockBase b + battCell) (blockBase b + battCellCnt) = true ∧
        allDefined gb.words (blockBase b + battTemp) (blockBase b + battTempCnt) = true
  · -- no gaps: the first registration takes the map, the others find none loaded
    have taken : gbDataDbcCb scan defs (.finished 0) gb =
        some { gb with inf := some b, rld := none } := by
      unfold gbDataDbcCb
      simp [loads.rld, complete.1, complete.2]
    rw [List.replicate_succ, gbRun_cons, taken, Option.bind_some, gbRun_fixed rfl] at h
    cases h
    exact ⟨rfl, .inl rfl⟩
  · have refused : gbDataDbcCb scan defs (.finished 0) gb = some gb := by
      unfold gbDataDbcCb
      simp only [loads.rld]
      by_cases cells : allDefined gb.words (blockBase b + battCell) (blockBase b + battCellCnt) = true
      · have temps : allDefined gb.words (blockBase b + battTemp) (blockBase b + battTempCnt) =
            false := by
          simpa [cells] using complete
        simp [cells, temps]
      · simp [cells]
    rw [gbRun_fixed refused] at h
    cases h
    -- a map without gaps would have been taken
    refine ⟨rfl, .inr ⟨rfl, fun gapless => complete ⟨?_, ?_⟩⟩⟩
    · exact loads.filled.allDefined gapless (r := (battCell, battCellCnt)) (by decide)
    · exact loads.filled.allDefined gapless (r := (battTemp, battTempCnt)) (by decide)

/-! ### One load -/

/-- The definitions that the GB32960 layer is given. -/
def World.defines (scan : Scan F) (answers : Answers) (file : DbcFile) (w : World F) :
    List Bytes :=
  (gbCalls (w.read scan answers file noBaud).2.calls).filterMap fun evt => match evt with
    | .define line => some line
    | _ => none

/-- A load that fails writes for a field neither into the active map nor outside the maps. One
that succeeds has its indices in their tables and, while a map is active, no gaps. -/
structure World.Bears (scan : Scan F) (defs : DefineScan) (answers : Answers) (file : DbcFile)
    (w : World F) : Prop where
  harmless : w.Fails scan answers file → ∀ field ∈ w.fields scan answers file,
    Harmless w.gb.inf field
  fields : ¬ w.Fails scan answers file → ∀ field ∈ w.fields scan answers file,
    (surfixEntry field.1 field.2).InTable
  defines : ¬ w.Fails scan answers file → ∀ line ∈ w.defines scan answers file,
    ∀ d, defs.define line = some d → d.InTable
  gapless : ¬ w.Fails scan answers file → w.gb.inf.isSome →
    Gapless (w.fields scan answers file)

/-- Each id in the active map is that of a signal of the active table, with a suffix for its
place. -/
def World.MapAgrees (w : World F) : Prop :=
  ∀ b, w.gb.inf = some b → ∀ a, SignalPlace a → w.gb.words (blockBase b + a) ≠ 0 →
    ∃ t id field, w.dbcData = some t ∧ w.gb.words (blockBase b + a) = UInt32.ofNat id ∧
      (surfixEntry field.1 field.2).place = some a ∧ Declared (w.dbcMem t).siglst id field

/-- What the GB32960 layer was asked is declared by the table that was read. -/
theorem asks_declared {id : Nat} {field : UInt32 × UInt32}
    (asked : (id, field) ∈ gbAsks scan (gbCalls (w.read scan answers file noBaud).2.calls)) :
    Declared (w.read scan answers file noBaud).2.dbc.siglst id field ∧
      UInt32.ofNat id ≠ 0 := by
  have begun : LineTold scan w.clients (notifyAll w.clients (.reload file.fpath) [])
      (Loading.begin (w.dbcMem (spareOf w.dbcData)) noBaud
        (notifyAll w.clients (.reload file.fpath) [])) := told_nothing _
  obtain ⟨new, calls, -, recorded⟩ := dbcRead_told answers file begun
  obtain ⟨sfx, mem, given⟩ := mem_gbAsks.mp asked
  have declared : Declared (w.read scan answers file noBaud).2.dbc.siglst id field := by
    have call := mem_gbCalls.mp mem
    unfold World.read at call
    rw [calls] at call
    -- what was called before the file was read are the reloads
    rcases List.mem_append.mp call with early | call
    · obtain ⟨c, -, same⟩ := List.mem_map.mp early
      cases same
    · exact recorded id sfx field call given
  refine ⟨declared, ?_⟩
  have fits : (w.read scan answers file noBaud).2.Fits := dbcRead_fits file (Nat.zero_le _)
  unfold Loading.Fits dbcMaxSignal at fits
  obtain ⟨positive, sig, at_, -⟩ := declared
  obtain ⟨inside, -⟩ := List.getElem?_eq_some_iff.mp at_
  -- the id is a place plus one, and the places fit into the table
  intro zero
  have toNat := congrArg UInt32.toNat zero
  rw [UInt32.toNat_ofNat_of_lt' (by simp only [UInt32.size]; omega)] at toNat
  simp at toNat
  omega

/-- The places of signals stay declared when warnings are marked. -/
theorem markWarnings_declared {id : Nat} {field : UInt32 × UInt32} {flag : UInt32} {gb gb' : GbInfo}
    {dbc : DbcData F} (declared : Declared dbc.siglst id field) :
    Declared (markWarnings flag gb gb' dbc).siglst id field := by
  unfold markWarnings
  split
  · exact declared
  · split
    · exact declared
    · refine List.foldlRecOn (motive := fun dbc : DbcData F => Declared dbc.siglst id field) _ _
        declared ?_
      intro dbc declared i mem
      dsimp only
      split
      · obtain ⟨positive, sig, at_, has⟩ := declared
        refine ⟨positive, ?_⟩
        simp only [dbcSetSignalFlag, List.getElem?_modify, at_]
        refine ⟨_, rfl, ?_⟩
        split
        · exact has
        · exact has
      · exact declared

theorem canDoChangeDbc_clients {ret : Int32}
    (h : canDoChangeDbc scan defs answers file w = some (ret, w')) : w'.clients = w.clients := by
  unfold canDoChangeDbc dbcLoadFile at h
  obtain ⟨⟨code, baud, made⟩, load, h⟩ := Option.map_eq_some_iff.mp h
  -- neither way of the load registers anybody
  have kept : made.clients = w.clients := by
    split at load
    · obtain ⟨gb, -, load⟩ := Option.bind_eq_some_iff.mp load
      cases load
      rfl
    · cases load
      rfl
  dsimp only at h
  split at h
  · cases h
    exact kept
  · cases h
    exact kept

theorem SameActive.agrees (same : SameActive w w') (agrees : w.MapAgrees) : w'.MapAgrees := by
  intro b active a place filled
  rw [same.inf] at active
  have inside := place.ranges
  have word : w'.gb.words (blockBase b + a) = w.gb.words (blockBase b + a) :=
    same.map b active _ (by omega) (by simp only [infoSize]; omega)
  rw [word] at filled ⊢
  obtain ⟨t, id, field, data, is, at_, declared⟩ := agrees b active a place filled
  refine ⟨t, id, field, same.data.trans data, is, at_, ?_⟩
  rw [same.table t data]
  exact declared

/-- A load that fails keeps what is active. -/
theorem same_of_fails {ret : Int32} (fails : w.Fails scan answers file)
    (bears : w.Bears scan defs answers file)
    (h : canDoChangeDbc scan defs answers file w = some (ret, w')) : SameActive w w' := by
  by_cases found : file.Found
  · obtain ⟨ret', made, load, same⟩ := keeps_of_harmless defs found
      (fails.resolve_left (not_not_intro found)) (bears.harmless fails)
    cases h.symm.trans load
    exact same
  · unfold canDoChangeDbc dbcLoadFile at h
    rw [if_neg found] at h
    cases h
    exact ⟨rfl, fun _ _ => rfl, rfl, fun _ _ _ _ _ => rfl, rfl, rfl⟩

/-- The fields of a load are those asked for. -/
theorem fields_eq (found : file.Found) :
    w.fields scan answers file =
      (gbAsks scan (gbCalls (w.read scan answers file noBaud).2.calls)).map (·.2) := by
  unfold World.fields gbAsks
  rw [if_pos found, List.map_filterMap]
  refine List.filterMap_congr fun evt mem => ?_
  cases evt with
  | surfix id sfx => simp
  | _ => rfl

theorem gbAsks_reloads (fpath : Bytes) (k : Nat) (new : List DbcEvent) :
    gbAsks scan (List.replicate k (.reload fpath) ++ new) = gbAsks scan new := by
  induction k with
  | zero => rfl
  | succ k ih => exact ih

/-- The events of a load that succeeds take the map over that was read, or leave the active one. -/
theorem events_done (found : file.Found) (done : (w.read scan answers file noBaud).1 = 0)
    (bears : w.Bears scan defs answers file) (registered : gbCount w.clients ≠ 0)
    (run : gbRun scan defs (w.events scan answers file) w.gb = some g) :
    w.gb.inf = none ∧ g.inf = none ∨ g.inf = some (spareOf w.gb.inf) ∧
      Filled (blockBase (spareOf w.gb.inf))
        (gbAsks scan (gbCalls (w.read scan answers file noBaud).2.calls)) g.words := by
  have succeeds : ¬ w.Fails scan answers file := fun fails =>
    fails.elim (fun lost => lost found) fun bad => bad done
  obtain ⟨new, reading, -, calls⟩ := events_of_read scan answers file w
  obtain ⟨k, count⟩ := Nat.exists_eq_succ_of_ne_zero registered
  have events : w.events scan answers file = List.replicate (k + 1) (.reload file.fpath) ++
      (new ++ List.replicate (k + 1) (.finished 0)) := by
    unfold World.events
    dsimp only
    rw [gbCalls_notifyAll, calls, count, done, List.append_assoc]
  have fields : w.fields scan answers file =
      (gbAsks scan (gbCalls (w.read scan answers file noBaud).2.calls)).map (·.2) := fields_eq found
  rw [calls, gbAsks_reloads] at fields ⊢
  have tame : Tame scan defs new := by
    refine ⟨?_, ?_⟩
    · rintro ⟨id, field⟩ mem
      have asked : (id, field) ∈ gbAsks scan (gbCalls (w.read scan answers file noBaud).2.calls) := by
        rw [calls, gbAsks_reloads]
        exact mem
      refine ⟨(asks_declared asked).2, bears.fields succeeds field ?_⟩
      rw [fields]
      exact List.mem_map.mpr ⟨_, mem, rfl⟩
    · intro line mem
      apply bears.defines succeeds line
      unfold World.defines
      rw [calls]
      exact List.mem_filterMap.mpr ⟨_, List.mem_append_right _ mem, rfl⟩
  -- the reloads, the lines of the file, the ends
  rw [events, List.replicate_succ, List.cons_append, gbRun_reload, gbRun_append] at run
  have empty : Loads (spareOf (reloaded w.gb).inf) [] (reloaded w.gb) := ⟨rfl, filled_reload _ _⟩
  obtain ⟨m, reloads, inf, loads⟩ := gbRun_reloads scan defs empty file.fpath k
  rw [reloads, Option.bind_some, gbRun_append] at run
  obtain ⟨n, reads, finishes⟩ := Option.bind_eq_some_iff.mp run
  obtain ⟨inf', loads⟩ := gbRun_loads loads reading tame reads
  obtain ⟨words, taken⟩ := gbRun_finished loads k finishes
  rcases taken with taken | ⟨left, gaps⟩
  · exact .inr ⟨taken, words ▸ loads.filled⟩
  · have same : g.inf = w.gb.inf := left.trans (inf'.trans inf)
    rw [List.nil_append, ← fields] at gaps
    -- gaps are possible before the first map only
    cases active : w.gb.inf with
    | none => exact .inl ⟨rfl, same.trans active⟩
    | some b => exact absurd (bears.gapless succeeds (by rw [active]; rfl)) gaps

/-- A load that succeeds makes the map agree with the table. -/
theorem agrees_of_done {ret : Int32} (succeeds : ¬ w.Fails scan answers file)
    (bears : w.Bears scan defs answers file)
    (unregistered : gbCount w.clients = 0 → w.gb.inf = none)
    (h : canDoChangeDbc scan defs answers file w = some (ret, w')) :
    (gbCount w.clients = 0 → w'.gb.inf = none) ∧ w'.MapAgrees := by
  have found : file.Found := Decidable.byContradiction fun lost => succeeds (.inl lost)
  have done : (w.read scan answers file noBaud).1 = 0 :=
    Decidable.byContradiction fun bad => succeeds (.inr bad)
  obtain ⟨run, data, table⟩ := canDoChangeDbc_done found done h
  by_cases registered : gbCount w.clients = 0
  · -- no map was ever loaded
    rcases events_shape scan answers file w with ⟨nothing, -⟩ | ⟨k, new, calls, -, -⟩
    · rw [nothing] at run
      have same : w.gb = w'.gb := Option.some.inj run
      have none : w'.gb.inf = none := same ▸ unregistered registered
      exact ⟨fun _ => none, fun b active => nomatch none.symm.trans active⟩
    · obtain ⟨new', -, no, calls'⟩ := events_of_read scan answers file w
      rw [calls', registered, no registered] at calls
      cases calls
  · refine ⟨fun none => absurd none registered, ?_⟩
    intro b active a place filled
    -- either map is filled from the table read, or there is none
    rcases events_done found done bears registered run with ⟨-, none⟩ | ⟨taken, loads⟩
    · exact nomatch none.symm.trans active
    · obtain rfl := Option.some.inj (taken.symm.trans active)
      obtain ⟨id, field, asked, at_, is⟩ := loads.ids a place filled
      refine ⟨_, id, field, data, is, at_, ?_⟩
      rw [table]
      exact markWarnings_declared (asks_declared asked).1

/-! ### Any loads -/

/-- No file was loaded yet. -/
def World.Unloaded (w : World F) : Prop := w.dbcData = none ∧ w.gb.inf = none

/-- A load of a file, whatever its result is. -/
def loadStep (scan : Scan F) (defs : DefineScan) (w : World F) (a : Answers × DbcFile)
    (w' : World F) : Prop :=
  ∃ ret, canDoChangeDbc scan defs a.1 a.2 w = some (ret, w')

/-- After any loads the maps bear, each id in the active map is the one that the active table
gives to a signal with a suffix for its place. -/
theorem map_agrees (scan : Scan F) (defs : DefineScan) (w : World F)
    (reach : Reach World.Unloaded
      (Guarded (fun w a => w.Bears scan defs a.1 a.2) (loadStep scan defs)) w) :
    w.MapAgrees := by
  have starts : ∀ w : World F, w.Unloaded →
      (gbCount w.clients = 0 → w.gb.inf = none) ∧ w.MapAgrees := by
    rintro w ⟨-, none⟩
    exact ⟨fun _ => none, fun b active => nomatch none.symm.trans active⟩
  have kept : ∀ (w : World F) (a : Answers × DbcFile) (w' : World F),
      (gbCount w.clients = 0 → w.gb.inf = none) ∧ w.MapAgrees →
      Guarded (fun w a => w.Bears scan defs a.1 a.2) (loadStep scan defs) w a w' →
      (gbCount w'.clients = 0 → w'.gb.inf = none) ∧ w'.MapAgrees := by
    rintro w ⟨answers, file⟩ w' ⟨unregistered, agrees⟩ ⟨bears, ret, load⟩
    rw [canDoChangeDbc_clients load]
    -- a load that fails keeps both, one that succeeds renews both
    by_cases fails : w.Fails scan answers file
    · have same := same_of_fails fails bears load
      exact ⟨fun none => same.inf.trans (unregistered none), same.agrees agrees⟩
    · exact agrees_of_done fails bears unregistered load
  exact (Reach.invariant starts kept reach).2

/-- The first load of a good file is borne. -/
theorem good_file_agrees :
    ∃ w, load goodFile unloaded = some (unloaded, 0, w) ∧ w.gb.inf = some false ∧
      w.gb.words 1 = 1 ∧ w.MapAgrees := by
  have shows : (canDoChangeDbc sampleScan noDefine (fun _ => 0) goodFile unloaded).map
      (fun r => (r.1, r.2.gb.inf, r.2.gb.words 1)) = some (0, some false, 1) := by
    decide
  obtain ⟨⟨ret, w⟩, loads, shown⟩ := Option.map_eq_some_iff.mp shows
  obtain ⟨rfl, active, word⟩ : ret = 0 ∧ w.gb.inf = some false ∧ w.gb.words 1 = 1 := by
    simpa using shown
  refine ⟨w, Option.map_eq_some_iff.mpr ⟨_, loads, rfl⟩, active, word, ?_⟩
  have succeeds : ¬ unloaded.Fails sampleScan (fun _ => 0) goodFile := by
    rintro (lost | bad)
    · exact lost ⟨by decide, rfl⟩
    · exact bad (by decide)
  -- the file has one field, in its table and without gaps
  have one : unloaded.fields sampleScan (fun _ => 0) goodFile = [(0x1, 0x001)] := by
    decide
  have bears : unloaded.Bears sampleScan noDefine (fun _ => 0) goodFile := by
    refine ⟨fun fails => absurd fails succeeds, fun _ => ?_, fun _ _ _ _ => by rintro ⟨⟩,
      fun _ => by rintro ⟨⟩⟩
    rw [one]
    intro field mem
    rw [List.mem_singleton.mp mem]
    trivial
  exact map_agrees sampleScan noDefine w
    (.next (fun _ => 0, goodFile) (.start ⟨rfl, rfl⟩) ⟨bears, 0, loads⟩)

/-! ### A file with a gap -/

/-- A signal for the second cell of the battery; there is none for the first. -/
def cellLine : FileLine := ⟨text " SG_ C_G8001 : 0|8@1+ (1,0) [0|255] \"\" VCU\n", []⟩

def gapScan : Scan Int :=
  { sampleScan with
    getSig := fun line =>
      if line = cellLine.text then
        some ⟨text "C_G8001", 0, 8, 0x31, 0x2B, 1, 0, 0, 255, text "\"\""⟩
      else sampleScan.getSig line
    gbField := fun sfx =>
      if text "G8001" <+: sfx then some (0x8, 0x001) else sampleScan.gbField sfx }

def gapFile : DbcFile :=
  ⟨text "/usrdata/d.dbc", true, [versionLine, msgLine, cellLine], true, true⟩

/-- After the file with a gap, the vehicle's first place but one has the id of the cell. -/
theorem gap_keeps_map :
    ∃ w, Reach World.Unloaded (loadStep gapScan noDefine) w ∧ ¬ w.MapAgrees := by
  have shows : ((canDoChangeDbc gapScan noDefine (fun _ => 0) goodFile unloaded).bind fun first =>
      canDoChangeDbc gapScan noDefine (fun _ => 0) gapFile first.2).map
        (fun second => (second.2.gb.inf, second.2.gb.words 1, second.2.dbcData,
          (second.2.dbcMem true).siglst.flatMap (·.gbFields))) =
      some (some false, 1, some true, [(0x8, 0x001)]) := by
    decide
  obtain ⟨⟨ret', w'⟩, loads, shown⟩ := Option.map_eq_some_iff.mp shows
  obtain ⟨⟨ret, w⟩, first, second⟩ := Option.bind_eq_some_iff.mp loads
  obtain ⟨active, word, data, fields⟩ : w'.gb.inf = some false ∧ w'.gb.words 1 = 1 ∧
      w'.dbcData = some true ∧ (w'.dbcMem true).siglst.flatMap (·.gbFields) = [(0x8, 0x001)] := by
    simpa using shown
  have reached : Reach World.Unloaded (loadStep gapScan noDefine) w :=
    .next (fun _ => 0, goodFile) (.start ⟨rfl, rfl⟩) ⟨ret, first⟩
  refine ⟨w', .next (fun _ => 0, gapFile) reached ⟨ret', second⟩, fun agrees => ?_⟩
  obtain ⟨t, id, field, is, -, place, -, sig, at_, declared⟩ :=
    agrees false active 1 (by decide) (by
      rw [show blockBase false + 1 = 1 from rfl, word]
      decide)
  obtain rfl := Option.some.inj (data.symm.trans is)
  -- the only field of the active table is the cell's
  have mem : field ∈ (w'.dbcMem true).siglst.flatMap (·.gbFields) :=
    List.mem_flatMap.mpr ⟨sig, List.mem_of_getElem? at_, declared⟩
  rw [fields] at mem
  rw [List.mem_singleton.mp mem] at place
  exact absurd place (by decide)

end Can
