import TBoxMpu.Gb32960.SignalMap

/-!
# What the signal map's writes reach

A suffix and a definition write into the block they are given, except for a fuel-cell
temperature, whose word is where its index says.
-/

namespace Gb32960

open Can

/-! ### Words -/

/-- The two agree everywhere but in the places of `P`. -/
def ChangesOnly (P : Int → Prop) (w w' : Words) : Prop := ∀ a, ¬ P a → w' a = w a

/-- The words of a block in front of its `next`. -/
def InBlock (b : Bool) (a : Int) : Prop := blockBase b ≤ a ∧ a < blockBase b + infoNext

instance (b : Bool) (a : Int) : Decidable (InBlock b a) := inferInstanceAs (Decidable (_ ∧ _))

theorem writable_of_inBlock {b : Bool} {a : Int} (inside : InBlock b a) : writable a = true := by
  obtain ⟨low, high⟩ := inside
  simp only [writable, Bool.and_eq_true, decide_eq_true_eq]
  cases b <;> simp only [blockBase, infoSize, infoNext] at * <;> grind

theorem InBlock.add {b : Bool} {a : Int} (low : 0 ≤ a) (high : a < infoNext) :
    InBlock b (blockBase b + a) :=
  ⟨by omega, by omega⟩

variable {P : Int → Prop} {w w' u u' : Words} {a x : Int} {v : UInt32}

theorem poke_inBlock {b : Bool} (inside : InBlock b a) (v : UInt32) (w : Words) :
    poke a v w = some fun x => if x = a then v else w x :=
  if_pos (writable_of_inBlock inside)

theorem poke_changes (h : poke a v w = some w') : ChangesOnly (· = a) w w' := by
  unfold poke at h
  split at h
  · cases h
    intro c other
    exact if_neg other
  · cases h

theorem ChangesOnly.trans (first : ChangesOnly P w w') (second : ChangesOnly P w' u) :
    ChangesOnly P w u :=
  fun a out => (second a out).trans (first a out)

theorem ChangesOnly.weaken {Q : Int → Prop} (h : ChangesOnly P w w') (le : ∀ a, P a → Q a) :
    ChangesOnly Q w w' :=
  fun a out => h a fun inside => out (le a inside)

/-- The same write to words that agree off `x`. -/
theorem poke_agree (agree : ChangesOnly (· = x) w w') (h : poke a v w = some u) :
    ∃ u', poke a v w' = some u' ∧ ChangesOnly (· = x) u u' ∧ (a = x → u' = u) := by
  unfold poke at h ⊢
  split at h
  next ok =>
    cases h
    rw [if_pos ok]
    refine ⟨_, rfl, ?_, ?_⟩
    · intro c other
      dsimp only
      split
      · rfl
      · exact agree c other
    · rintro rfl
      funext c
      split
      · rfl
      next other => exact agree c other
  · cases h

/-! ### Suffixes -/

theorem offset_lt {i n : UInt32} (small : ¬ i ≥ n) (bound : n.toNat ≤ 800) :
    0 ≤ offset i ∧ offset i < n.toNat := by
  have lt : i.toNat < n.toNat := UInt32.lt_iff_toNat_lt.mp (UInt32.not_le.mp small)
  unfold offset
  rw [if_pos (by omega)]
  omega

/-- The words of an entry, but for a fuel-cell temperature, lie in the first `infoNext`. -/
def Entry.Inside : Entry → Prop
  | .refused | .fuelTemp _ => True
  | .plain a | .motor a _ => 0 ≤ a ∧ a < infoNext
  | .counted a c => (0 ≤ a ∧ a < infoNext) ∧ 0 ≤ c ∧ c < infoNext

theorem boundedEntry_inside {array : Int} {size : UInt32} (low : 0 ≤ array)
    (small : size.toNat ≤ 800) (high : array + size.toNat ≤ infoNext) (i : UInt32) :
    (boundedEntry array size i).Inside := by
  unfold boundedEntry
  split
  · trivial
  next fits =>
    obtain ⟨lower, upper⟩ := offset_lt fits small
    exact ⟨by omega, by omega⟩

theorem motorEntry_inside (i : UInt32) : (motorEntry i).Inside := by
  unfold motorEntry
  split
  · trivial
  next number =>
    split
    · trivial
    next place =>
      have m := offset_lt number (by decide)
      have k := offset_lt place (by decide)
      simp [Entry.Inside, motor, infoNext] at *
      omega

theorem fuelcellEntry_inside (i : UInt32) : (fuelcellEntry i).Inside := by
  unfold fuelcellEntry
  split
  · trivial
  · exact boundedEntry_inside (by decide) (by decide) (by decide) _

theorem warnEntry_inside (i : UInt32) : (warnEntry i).Inside := by
  unfold warnEntry
  split
  · trivial
  next level =>
    split
    · trivial
    next number =>
      have l := offset_lt level (by decide)
      have k := offset_lt number (by decide)
      simp [Entry.Inside, warn, infoNext] at *
      omega

theorem battVoltEntry_inside (i : UInt32) : (battVoltEntry i).Inside := by
  unfold battVoltEntry
  split
  · trivial
  · split
    · exact ⟨by decide, by decide⟩
    · split
      · exact ⟨by decide, by decide⟩
      · split
        · trivial
        next cell =>
          have k := offset_lt cell (by decide)
          simp [Entry.Inside, battCell, battCellCnt, infoNext] at *
          omega

theorem battTempEntry_inside (i : UInt32) : (battTempEntry i).Inside := by
  unfold battTempEntry
  split
  · trivial
  · split
    · trivial
    next temp =>
      have k := offset_lt temp (by decide)
      simp [Entry.Inside, battTemp, battTempCnt, infoNext] at *
      omega

theorem surfixEntry_inside (gbtype gbindex : UInt32) : (surfixEntry gbtype gbindex).Inside := by
  unfold surfixEntry
  split
  · exact boundedEntry_inside (by decide) (by decide) (by decide) _
  · exact motorEntry_inside _
  · exact fuelcellEntry_inside _
  · exact boundedEntry_inside (by decide) (by decide) (by decide) _
  · exact boundedEntry_inside (by decide) (by decide) (by decide) _
  · exact warnEntry_inside _
  · exact battVoltEntry_inside _
  · exact battTempEntry_inside _
  · trivial

variable {b : Bool} {id : Nat} {field : UInt32 × UInt32}

/-- A suffix changes words of its block and, for a fuel-cell temperature, the word of its
index; it has a result if that word is writable. -/
theorem gbDataParseSurfix_changes (w : Words) (id : Nat)
    (reach : ∀ a, surfixEntry field.1 field.2 = .fuelTemp a → writable (blockBase b + a) = true) :
    ∃ w', gbDataParseSurfix (blockBase b) id field w = some w' ∧
      ChangesOnly (fun a => InBlock b a ∨
        surfixEntry field.1 field.2 = .fuelTemp (a - blockBase b)) w w' := by
  have inside := surfixEntry_inside field.1 field.2
  unfold gbDataParseSurfix
  generalize surfixEntry field.1 field.2 = entry at *
  -- a word of the block
  have own : ∀ (a : Int) (v : UInt32) (u : Words), 0 ≤ a ∧ a < infoNext →
      ∃ u', poke (blockBase b + a) v u = some u' ∧ ChangesOnly (fun a => InBlock b a ∨
        entry = .fuelTemp (a - blockBase b)) u u' := by
    intro a v u range
    have at_ := InBlock.add (b := b) range.1 range.2
    refine ⟨_, poke_inBlock at_ v u, (poke_changes (poke_inBlock at_ v u)).weaken ?_⟩
    rintro c rfl
    exact .inl at_
  cases entry with
  | refused => exact ⟨w, rfl, fun _ _ => rfl⟩
  | plain a => exact own a _ w inside
  | motor a number =>
    obtain ⟨w₁, first, changes⟩ := own a (UInt32.ofNat id) w inside
    dsimp only
    rw [first, Option.bind_eq_bind, Option.bind_some]
    split
    · obtain ⟨w₂, second, more⟩ := own motorCnt (number + 1) w₁ (by decide)
      exact ⟨w₂, second, changes.trans more⟩
    · exact ⟨w₁, rfl, changes⟩
  | fuelTemp a =>
    obtain ⟨w₁, first, changes⟩ :=
      own fuelTempCnt (w (blockBase b + fuelTempCnt) + 1) w (by decide)
    dsimp only
    rw [first, Option.bind_eq_bind, Option.bind_some]
    have second : poke (blockBase b + a) (UInt32.ofNat id) w₁ = some _ := if_pos (reach a rfl)
    refine ⟨_, second, changes.trans ((poke_changes second).weaken ?_)⟩
    rintro c rfl
    exact .inr (congrArg Entry.fuelTemp (by omega))
  | counted a c =>
    dsimp only
    split
    · obtain ⟨w₁, first, changes⟩ := own a (UInt32.ofNat id) w inside.1
      obtain ⟨w₂, second, more⟩ := own c (w₁ (blockBase b + c) + 1) w₁ inside.2
      rw [first, Option.bind_eq_bind, Option.bind_some]
      exact ⟨w₂, second, changes.trans more⟩
    · exact ⟨w, rfl, fun _ _ => rfl⟩

/-- From words that agree off a word outside the block, a suffix makes words that do; where
it writes that word, they are the same. -/
theorem gbDataParseSurfix_agree (outside : ¬ InBlock b x) (agree : ChangesOnly (· = x) w w')
    (h : gbDataParseSurfix (blockBase b) id field w = some u) :
    ∃ u', gbDataParseSurfix (blockBase b) id field w' = some u' ∧ ChangesOnly (· = x) u u' ∧
      (surfixEntry field.1 field.2 = .fuelTemp (x - blockBase b) → u' = u) := by
  have inside := surfixEntry_inside field.1 field.2
  have read : ∀ {w w' : Words} {a : Int}, ChangesOnly (· = x) w w' → 0 ≤ a ∧ a < infoNext →
      w' (blockBase b + a) = w (blockBase b + a) := by
    intro w w' a agree range
    exact agree _ fun same => outside (same ▸ InBlock.add range.1 range.2)
  unfold gbDataParseSurfix at h ⊢
  generalize surfixEntry field.1 field.2 = entry at *
  cases entry with
  | refused =>
    cases h
    exact ⟨w', rfl, agree, nofun⟩
  | plain a =>
    obtain ⟨u', done, agree, -⟩ := poke_agree agree h
    exact ⟨u', done, agree, nofun⟩
  | motor a number =>
    dsimp only at h ⊢
    -- the id is written first, the counter after it
    obtain ⟨w₁, first, h⟩ := Option.bind_eq_some_iff.mp h
    obtain ⟨w₁', first', agree, -⟩ := poke_agree agree first
    rw [first', Option.bind_eq_bind, Option.bind_some, read agree (by decide)]
    split at h
    next more =>
      rw [if_pos more]
      obtain ⟨u', done, agree, -⟩ := poke_agree agree h
      exact ⟨u', done, agree, nofun⟩
    next more =>
      rw [if_neg more]
      cases h
      exact ⟨w₁', rfl, agree, nofun⟩
  | fuelTemp a =>
    dsimp only at h ⊢
    obtain ⟨w₁, first, h⟩ := Option.bind_eq_some_iff.mp h
    rw [← read agree (show 0 ≤ fuelTempCnt ∧ fuelTempCnt < infoNext by decide)] at first
    obtain ⟨w₁', first', agree, -⟩ := poke_agree agree first
    rw [first', Option.bind_eq_bind, Option.bind_some]
    obtain ⟨u', done, agree, same⟩ := poke_agree agree h
    refine ⟨u', done, agree, fun hit => same ?_⟩
    -- the hit writes the word that differed, and the difference is gone
    cases hit
    omega
  | counted a c =>
    dsimp only at h ⊢
    rw [read agree inside.1]
    split at h
    next zero =>
      rw [if_pos zero]
      obtain ⟨w₁, first, h⟩ := Option.bind_eq_some_iff.mp h
      obtain ⟨w₁', first', agree, -⟩ := poke_agree agree first
      rw [first', Option.bind_eq_bind, Option.bind_some, read agree inside.2]
      obtain ⟨u', done, agree, -⟩ := poke_agree agree h
      exact ⟨u', done, agree, nofun⟩
    next filled =>
      rw [if_neg filled]
      cases h
      exact ⟨w', rfl, agree, nofun⟩

/-! ### Definitions -/

/-- A definition puts one byte into its block. -/
theorem gbDataParseDefine_byte {d : GbDefine} (range : d.InRange) (b : Bool) :
    ∃ a i v, InBlock b (a + i / 4) ∧ ∀ w, gbDataParseDefine (blockBase b) w d = pokeByte a i v w := by
  cases d with
  | motState m i st =>
    refine ⟨_, _, _, ?_, fun _ => rfl⟩
    have number := offset_lt (UInt32.not_le.mpr range.1) (by decide)
    obtain ⟨low, high⟩ := range.2
    simp [InBlock, motor, infoNext] at *
    omega
  | vehiType vtype =>
    refine ⟨_, _, _, ?_, fun _ => rfl⟩
    simp only [InBlock, infoNext, vehiType]
    omega
  | _ =>
    refine ⟨_, _, _, ?_, fun _ => rfl⟩
    obtain ⟨low, high⟩ := range
    simp only [InBlock, infoNext, enginStateTbl, vehiStateTbl, vehiModeTbl, vehiShiftTbl,
      vehiChargeTbl, vehiDcdcTbl, fuelHvdcdc]
    omega

theorem gbDataParseDefine_changes {d : GbDefine} (range : d.InRange) :
    ∃ w', gbDataParseDefine (blockBase b) w d = some w' ∧ ChangesOnly (InBlock b) w w' := by
  obtain ⟨a, i, v, inside, byte⟩ := gbDataParseDefine_byte range b
  rw [byte w]
  refine ⟨_, poke_inBlock inside _ w, (poke_changes (poke_inBlock inside _ w)).weaken ?_⟩
  rintro c rfl
  exact inside

theorem gbDataParseDefine_agree {d : GbDefine} (range : d.InRange) (outside : ¬ InBlock b x)
    (agree : ChangesOnly (· = x) w w') (h : gbDataParseDefine (blockBase b) w d = some u) :
    ∃ u', gbDataParseDefine (blockBase b) w' d = some u' ∧ ChangesOnly (· = x) u u' := by
  obtain ⟨a, i, v, inside, byte⟩ := gbDataParseDefine_byte range b
  rw [byte w] at h
  rw [byte w']
  have read : w' (a + i / 4) = w (a + i / 4) := agree _ fun same => outside (same ▸ inside)
  unfold pokeByte at h ⊢
  dsimp only at h ⊢
  rw [read]
  obtain ⟨u', done, agree, -⟩ := poke_agree agree h
  exact ⟨u', done, agree⟩

/-! ### Reloading -/

theorem reloadWords_changes (b : Bool) (w : Words) : ChangesOnly (InBlock b) w (reloadWords b w) := by
  intro a outside
  have type : a ≠ blockBase b + vehiType := by
    rintro rfl
    exact outside (InBlock.add (by decide) (by decide))
  unfold reloadWords
  rw [if_neg type]
  exact if_neg outside

theorem reloadWords_agree (b : Bool) (agree : ChangesOnly (· = x) w w') :
    ChangesOnly (· = x) (reloadWords b w) (reloadWords b w') := by
  intro a other
  unfold reloadWords
  rw [agree a other]

/-! ### Events -/

variable {F : Type} {scan : Scan F} {defs : DefineScan} {gb gb' g : GbInfo} {evt : DbcEvent}

/-- Nothing is loaded, or the load fills the spare block. -/
def GbInfo.Filling (gb : GbInfo) : Prop :=
  gb.rld = none ∨ gb.rld = some (spareOf gb.inf)

theorem GbInfo.loading_spare {b : Bool} (filling : gb.Filling) (loading : gb.rld = some b) :
    b = spareOf gb.inf := by
  rcases filling with none | some
  · exact nomatch none.symm.trans loading
  · exact Option.some.inj (loading.symm.trans some)

/-- The write for the field of this event can be made. -/
def Reaches (scan : Scan F) (b : Bool) (evt : DbcEvent) : Prop :=
  ∀ id sfx field a, evt = .surfix id sfx → scan.gbField sfx = some field →
    surfixEntry field.1 field.2 = .fuelTemp a → writable (blockBase b + a) = true

/-- The word is that of the field of this event. -/
def Hits (scan : Scan F) (b : Bool) (evt : DbcEvent) (x : Int) : Prop :=
  ∃ id sfx field, evt = .surfix id sfx ∧ scan.gbField sfx = some field ∧
    surfixEntry field.1 field.2 = .fuelTemp (x - blockBase b)

/-- While a load goes on or fails, an event keeps the active map; it changes words of the
spare block, and those it hits. -/
theorem gbDataDbcCb_changes (defs : DefineScan) (filling : gb.Filling) (failing : evt ≠ .finished 0)
    (reach : Reaches scan (spareOf gb.inf) evt) :
    ∃ g, gbDataDbcCb scan defs evt gb = some g ∧ g.inf = gb.inf ∧ g.Filling ∧
      ChangesOnly (fun a => InBlock (spareOf gb.inf) a ∨ Hits scan (spareOf gb.inf) evt a)
        gb.words g.words := by
  cases evt with
  | reload fpath =>
    refine ⟨_, rfl, rfl, .inr rfl, ?_⟩
    exact (reloadWords_changes _ _).weaken fun _ => .inl
  | finished ret =>
    have bad : ret ≠ 0 := fun zero => failing (zero ▸ rfl)
    unfold gbDataDbcCb
    cases loading : gb.rld with
    | none => exact ⟨_, rfl, rfl, .inl rfl, fun _ _ => rfl⟩
    | some b => exact ⟨_, if_pos bad, rfl, .inl rfl, fun _ _ => rfl⟩
  | define line =>
    unfold gbDataDbcCb
    dsimp only
    split
    next b d loading read =>
      obtain rfl := GbInfo.loading_spare filling loading
      obtain ⟨w', done, changes⟩ := gbDataParseDefine_changes (defs.inRange line d read)
      rw [done]
      exact ⟨_, rfl, rfl, filling, changes.weaken fun _ => .inl⟩
    · exact ⟨gb, rfl, rfl, filling, fun _ _ => rfl⟩
  | surfix id sfx =>
    unfold gbDataDbcCb
    dsimp only
    split
    next b field loading read =>
      obtain rfl := GbInfo.loading_spare filling loading
      obtain ⟨w', done, changes⟩ := gbDataParseSurfix_changes gb.words id
        fun a hit => reach id sfx field a rfl read hit
      rw [done]
      refine ⟨_, rfl, rfl, filling, changes.weaken ?_⟩
      rintro a (inside | hit)
      · exact .inl inside
      · exact .inr ⟨id, sfx, field, rfl, read, hit⟩
    · exact ⟨gb, rfl, rfl, filling, fun _ _ => rfl⟩

/-- The two differ in the word `x` at most. -/
structure AgreeOff (x : Int) (gb gb' : GbInfo) : Prop where
  inf : gb'.inf = gb.inf
  rld : gb'.rld = gb.rld
  words : ChangesOnly (· = x) gb.words gb'.words

/-- An event makes of maps that agree off a word outside the spare block maps that do, and
equal ones where it hits that word while loading. -/
theorem gbDataDbcCb_agree (filling : gb.Filling) (failing : evt ≠ .finished 0)
    (outside : ¬ InBlock (spareOf gb.inf) x) (agree : AgreeOff x gb gb')
    (h : gbDataDbcCb scan defs evt gb = some g) :
    ∃ g', gbDataDbcCb scan defs evt gb' = some g' ∧ AgreeOff x g g' ∧
      (gb.rld.isSome → Hits scan (spareOf gb.inf) evt x → g' = g) := by
  obtain ⟨inf, rld, words⟩ := agree
  cases evt with
  | reload fpath =>
    cases h
    -- both clear the spare block, which the word is outside of
    refine ⟨_, rfl, ⟨inf, by dsimp only; rw [inf], ?_⟩, nofun⟩
    dsimp only
    rw [inf]
    exact reloadWords_agree _ words
  | finished ret =>
    -- a failed load ends without a look at the words
    have bad : ret ≠ 0 := fun zero => failing (zero ▸ rfl)
    unfold gbDataDbcCb at h ⊢
    dsimp only at h ⊢
    rw [rld]
    cases loading : gb.rld with
    | none =>
      rw [loading] at h
      cases h
      exact ⟨_, rfl, ⟨inf, rfl, words⟩, nofun⟩
    | some b =>
      rw [loading] at h
      cases (if_pos bad).symm.trans h
      exact ⟨_, if_pos bad, ⟨inf, rfl, words⟩, nofun⟩
  | define line =>
    -- a definition is no suffix, so that it hits nothing
    refine (?_ : ∃ g', _ ∧ AgreeOff x g g').imp fun g' found => ⟨found.1, found.2, nofun⟩
    unfold gbDataDbcCb at h ⊢
    dsimp only at h ⊢
    rw [rld]
    cases loading : gb.rld with
    | none =>
      rw [loading] at h
      cases h
      exact ⟨_, rfl, inf, rld, words⟩
    | some b =>
      obtain rfl := GbInfo.loading_spare filling loading
      cases read : defs.define line with
      | none =>
        rw [loading, read] at h
        cases h
        exact ⟨_, rfl, inf, rld, words⟩
      | some d =>
        rw [loading, read] at h
        obtain ⟨u, done, rfl⟩ := Option.map_eq_some_iff.mp h
        obtain ⟨u', done', agree⟩ :=
          gbDataParseDefine_agree (defs.inRange line d read) outside words done
        exact ⟨_, Option.map_eq_some_iff.mpr ⟨u', done', rfl⟩, inf, rfl, agree⟩
  | surfix id sfx =>
    unfold gbDataDbcCb at h ⊢
    dsimp only at h ⊢
    rw [rld]
    cases loading : gb.rld with
    | none =>
      rw [loading] at h
      cases h
      exact ⟨_, rfl, ⟨inf, rld, words⟩, nofun⟩
    | some b =>
      obtain rfl := GbInfo.loading_spare filling loading
      cases read : scan.gbField sfx with
      | none =>
        rw [loading, read] at h
        cases h
        refine ⟨_, rfl, ⟨inf, rld, words⟩, ?_⟩
        rintro - ⟨_, _, field, same, scanned, -⟩
        cases same
        exact nomatch read.symm.trans scanned
      | some field =>
        rw [loading, read] at h
        obtain ⟨u, done, rfl⟩ := Option.map_eq_some_iff.mp h
        obtain ⟨u', done', agree, hit⟩ := gbDataParseSurfix_agree outside words done
        refine ⟨_, Option.map_eq_some_iff.mpr ⟨u', done', rfl⟩, ⟨inf, rfl, agree⟩, ?_⟩
        rintro - ⟨_, _, field', same, scanned, at_⟩
        cases same
        obtain rfl := Option.some.inj (read.symm.trans scanned)
        rw [inf, hit at_]

/-- An event that is no `FINISHED` for success keeps the active block and what is filled; the
load goes on unless it is a `FINISHED`. -/
theorem gbDataDbcCb_filling (filling : gb.Filling) (failing : evt ≠ .finished 0)
    (h : gbDataDbcCb scan defs evt gb = some g) :
    g.inf = gb.inf ∧ g.Filling ∧ ((∀ ret, evt ≠ .finished ret) → gb.rld.isSome → g.rld.isSome) := by
  cases evt with
  | reload fpath =>
    cases h
    exact ⟨rfl, .inr rfl, fun _ _ => rfl⟩
  | finished ret =>
    have bad : ret ≠ 0 := fun zero => failing (zero ▸ rfl)
    refine ⟨?_, ?_, fun none => (none ret rfl).elim⟩
    all_goals
      unfold gbDataDbcCb at h
      dsimp only at h
      cases loading : gb.rld with
      | none =>
        rw [loading] at h
        cases h
        first | rfl | exact .inl rfl
      | some b =>
        rw [loading] at h
        cases (if_pos bad).symm.trans h
        first | rfl | exact .inl rfl
  | define line =>
    unfold gbDataDbcCb at h
    dsimp only at h
    split at h
    · obtain ⟨u, -, rfl⟩ := Option.map_eq_some_iff.mp h
      exact ⟨rfl, filling, fun _ => id⟩
    · cases h
      exact ⟨rfl, filling, fun _ => id⟩
  | surfix id sfx =>
    unfold gbDataDbcCb at h
    dsimp only at h
    split at h
    · obtain ⟨u, -, rfl⟩ := Option.map_eq_some_iff.mp h
      exact ⟨rfl, filling, fun _ some => some⟩
    · cases h
      exact ⟨rfl, filling, fun _ some => some⟩

/-- A suffix that is taken while loading could be written. -/
theorem gbDataDbcCb_reaches (filling : gb.Filling) (loading : gb.rld.isSome)
    (h : gbDataDbcCb scan defs evt gb = some g) : Reaches scan (spareOf gb.inf) evt := by
  rintro id sfx field a rfl read at_
  obtain ⟨b, rld⟩ := Option.isSome_iff_exists.mp loading
  obtain rfl := GbInfo.loading_spare filling rld
  unfold gbDataDbcCb at h
  dsimp only at h
  rw [rld, read] at h
  obtain ⟨u, done, -⟩ := Option.map_eq_some_iff.mp h
  unfold gbDataParseSurfix at done
  rw [at_] at done
  obtain ⟨w₁, -, second⟩ := Option.bind_eq_some_iff.mp done
  unfold poke at second
  split at second
  next ok => exact ok
  · cases second

/-! ### Runs of events -/

/-- `gb_data_dbc_cb` for one event after the other. -/
def gbRun (scan : Scan F) (defs : DefineScan) (evts : List DbcEvent) (gb : GbInfo) :
    Option GbInfo :=
  evts.foldlM (fun gb evt => gbDataDbcCb scan defs evt gb) gb

variable {evts : List DbcEvent}

theorem gbRun_cons (evt : DbcEvent) (evts : List DbcEvent) (gb : GbInfo) :
    gbRun scan defs (evt :: evts) gb = (gbDataDbcCb scan defs evt gb).bind (gbRun scan defs evts) :=
  List.foldlM_cons ..

theorem gbRun_append (evts evts' : List DbcEvent) (gb : GbInfo) :
    gbRun scan defs (evts ++ evts') gb = (gbRun scan defs evts gb).bind (gbRun scan defs evts') :=
  List.foldlM_append ..

theorem gbRun_changes (filling : gb.Filling) (failing : ∀ evt ∈ evts, evt ≠ .finished 0)
    (reach : ∀ evt ∈ evts, Reaches scan (spareOf gb.inf) evt) :
    ∃ g, gbRun scan defs evts gb = some g ∧ g.inf = gb.inf ∧
      ChangesOnly (fun a => InBlock (spareOf gb.inf) a ∨
        ∃ evt ∈ evts, Hits scan (spareOf gb.inf) evt a) gb.words g.words := by
  induction evts generalizing gb with
  | nil => exact ⟨gb, rfl, rfl, fun _ _ => rfl⟩
  | cons evt rest ih =>
    obtain ⟨g, done, inf, filling, first⟩ := gbDataDbcCb_changes defs filling
      (failing evt (List.mem_cons_self ..)) (reach evt (List.mem_cons_self ..))
    obtain ⟨g', later, inf', others⟩ := ih filling
      (fun e mem => failing e (List.mem_cons_of_mem _ mem))
      (fun e mem => inf ▸ reach e (List.mem_cons_of_mem _ mem))
    rw [inf] at others
    refine ⟨g', ?_, inf'.trans inf, ChangesOnly.trans (first.weaken ?_) (others.weaken ?_)⟩
    · rw [gbRun_cons, done]
      exact later
    · exact fun a => Or.imp_right fun hit => ⟨evt, List.mem_cons_self .., hit⟩
    · exact fun a => Or.imp_right fun ⟨e, mem, hit⟩ => ⟨e, List.mem_cons_of_mem _ mem, hit⟩

theorem gbRun_filling (filling : gb.Filling) (failing : ∀ evt ∈ evts, evt ≠ .finished 0)
    (h : gbRun scan defs evts gb = some g) :
    g.inf = gb.inf ∧ g.Filling ∧
      ((∀ evt ∈ evts, ∀ ret, evt ≠ .finished ret) → gb.rld.isSome → g.rld.isSome) := by
  induction evts generalizing gb with
  | nil =>
    cases h
    exact ⟨rfl, filling, fun _ => id⟩
  | cons evt rest ih =>
    rw [gbRun_cons] at h
    obtain ⟨m, first, h⟩ := Option.bind_eq_some_iff.mp h
    obtain ⟨inf, filling, goes⟩ :=
      gbDataDbcCb_filling filling (failing evt (List.mem_cons_self ..)) first
    obtain ⟨inf', filling', goes'⟩ :=
      ih filling (fun e mem => failing e (List.mem_cons_of_mem _ mem)) h
    refine ⟨inf'.trans inf, filling', fun reading some => ?_⟩
    exact goes' (fun e mem => reading e (List.mem_cons_of_mem _ mem))
      (goes (reading evt (List.mem_cons_self ..)) some)

theorem gbRun_agree (filling : gb.Filling) (failing : ∀ evt ∈ evts, evt ≠ .finished 0)
    (outside : ¬ InBlock (spareOf gb.inf) x) (agree : AgreeOff x gb gb')
    (h : gbRun scan defs evts gb = some g) :
    ∃ g', gbRun scan defs evts gb' = some g' ∧ AgreeOff x g g' := by
  induction evts generalizing gb gb' with
  | nil =>
    cases h
    exact ⟨gb', rfl, agree⟩
  | cons evt rest ih =>
    rw [gbRun_cons] at h
    obtain ⟨m, first, h⟩ := Option.bind_eq_some_iff.mp h
    have fails := failing evt (List.mem_cons_self ..)
    obtain ⟨inf, filling', -⟩ := gbDataDbcCb_filling filling fails first
    obtain ⟨m', first', agree', -⟩ := gbDataDbcCb_agree filling fails outside agree first
    obtain ⟨g', later, agree''⟩ := ih filling'
      (fun e mem => failing e (List.mem_cons_of_mem _ mem)) (inf ▸ outside) agree' h
    refine ⟨g', ?_, agree''⟩
    rw [gbRun_cons, first']
    exact later

/-- A run that hits a word while it loads makes that word the same, whatever it was. -/
theorem gbRun_hits {evt : DbcEvent} {later : List DbcEvent} (filling : gb.Filling)
    (loading : gb.rld.isSome) (reading : ∀ e ∈ evts, ∀ ret, e ≠ .finished ret)
    (failing : ∀ e ∈ evt :: later, e ≠ .finished 0) (outside : ¬ InBlock (spareOf gb.inf) x)
    (hit : Hits scan (spareOf gb.inf) evt x) (agree : AgreeOff x gb gb')
    (h : gbRun scan defs (evts ++ evt :: later) gb = some g) :
    gbRun scan defs (evts ++ evt :: later) gb' = some g := by
  rw [gbRun_append] at h ⊢
  obtain ⟨m, first, h⟩ := Option.bind_eq_some_iff.mp h
  have before : ∀ e ∈ evts, e ≠ .finished 0 := fun e mem => reading e mem 0
  obtain ⟨inf, filling', goes⟩ := gbRun_filling filling before first
  obtain ⟨m', first', agree'⟩ := gbRun_agree filling before outside agree first
  rw [gbRun_cons] at h
  obtain ⟨n, second, h⟩ := Option.bind_eq_some_iff.mp h
  obtain ⟨n', second', -, same⟩ := gbDataDbcCb_agree filling'
    (failing evt (List.mem_cons_self ..)) (inf ▸ outside) agree' second
  rw [first', Option.bind_some, gbRun_cons, second', Option.bind_some,
    same (goes reading loading) (inf ▸ hit)]
  exact h

end Gb32960
