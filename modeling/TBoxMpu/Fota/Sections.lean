import TBoxMpu.Fota.Image
import TBoxMpu.Lib.Segments
import Mathlib.Data.Nat.Bitwise
import Mathlib.Data.List.TakeWhile

/-!
# The sections of an image

Storing a record in an image places it behind the segments that the sections denote:
`ImgOk.store` for a record of its real length, `ImgOk.store_wrapped` for a length that
wrapped around.
-/

namespace Fota

open Segments

/-! ### Addresses -/

/-- The address of the `i`-th byte from `base`, which counts words of `2 ^ wsize` bytes. -/
def wordAddr (wsize : Nat) (base : UInt32) (i : Nat) : Nat :=
  (base + UInt32.ofNat (i / 2 ^ wsize)).toNat * 2 ^ wsize + i % 2 ^ wsize

def wordNext (wsize : Nat) (base : UInt32) (n : Nat) : UInt32 := base + UInt32.ofNat (n / 2 ^ wsize)

/-- Whole words lead to a base that counts on. -/
theorem wordAddr_next {wsize n : Nat} (words : 2 ^ wsize ∣ n) (base : UInt32) (i : Nat) :
    wordAddr wsize (wordNext wsize base n) i = wordAddr wsize base (n + i) := by
  obtain ⟨k, rfl⟩ := words
  have pos : 0 < 2 ^ wsize := Nat.two_pow_pos wsize
  have word : (2 ^ wsize * k + i) / 2 ^ wsize = k + i / 2 ^ wsize := Nat.mul_add_div pos k i
  have offset : (2 ^ wsize * k + i) % 2 ^ wsize = i % 2 ^ wsize := Nat.mul_add_mod ..
  rw [wordAddr, wordAddr, wordNext, word, offset, Nat.mul_div_cancel_left k pos, UInt32.ofNat_add,
    UInt32.add_assoc]

/-- `size >> wsize` counts the words. -/
theorem shift_words {wsize : Nat} (small : wsize < 32) (size : UInt32) :
    size >>> UInt32.ofNat wsize = UInt32.ofNat (size.toNat / 2 ^ wsize) := by
  apply UInt32.toNat_inj.mp
  have lt := size.toNat_lt
  have le := Nat.div_le_self size.toNat (2 ^ wsize)
  have shift : wsize % 2 ^ 32 % 32 = wsize := by omega
  rw [UInt32.toNat_shiftRight, UInt32.toNat_ofNat', UInt32.toNat_ofNat', shift,
    Nat.shiftRight_eq_div_pow, Nat.mod_eq_of_lt (by omega)]

/-- Where `img->buff` can lie: behind `img->sect`, and not at the very end of the address
space. -/
structure ImgAddr (buff : UInt32) : Prop where
  low : 4 ≤ buff.toNat
  high : buff.toNat + imageSize + 255 < 2 ^ 32

/-! ### The image and its segments -/

/-- The sections with their bytes, the one in use too. -/
def FotaImg.segments (img : FotaImg) : List (Segment UInt32 UInt8) :=
  (img.done ++ [img.sect]).map fun sect => ⟨sect.base, img.bytes sect⟩

/-- What the sections denote in the order of `FOR_EACH_IMGSECT`. -/
def FotaImg.cells (wsize : Nat) (img : FotaImg) : List (Nat × UInt8) :=
  Segments.cells (wordAddr wsize) (img.sects.map fun sect => ⟨sect.base, img.bytes sect⟩)

/-- The sections lie in the buffer one after the other, and only the last can be empty. -/
structure ImgOk (wsize : Nat) (img : FotaImg) : Prop where
  fits : img.buff.length ≤ imageSize
  room : img.done.length + 1 ≤ imageMaxSect
  inside : ∀ sect ∈ img.done ++ [img.sect], sect.data + sect.size.toNat ≤ img.buff.length
  used : ∀ sect ∈ img.done, sect.size ≠ 0
  last : img.sect.size ≠ 0 → img.sect.data + img.sect.size.toNat = img.buff.length
  words : ∀ sect ∈ img.done ++ [img.sect], 2 ^ wsize ∣ sect.size.toNat

variable {wsize : Nat} {img : FotaImg} {buff base dlen : UInt32}

theorem imgOk_empty (wsize : Nat) : ImgOk wsize .empty := by
  refine ⟨by decide, by decide, ?_, nofun, fun used => absurd rfl used, ?_⟩ <;> simp [FotaImg.empty]

theorem ImgOk.length_bytes (ok : ImgOk wsize img) {sect : ImgSect}
    (mem : sect ∈ img.done ++ [img.sect]) : (img.bytes sect).length = sect.size.toNat := by
  have inside := ok.inside sect mem
  rw [FotaImg.bytes, List.length_take, List.length_drop]
  omega

/-- An empty section denotes nothing, so it does not matter that the walk stops there. -/
theorem ImgOk.cells_segments (ok : ImgOk wsize img) :
    img.cells wsize = Segments.cells (wordAddr wsize) img.segments := by
  have done : img.done.takeWhile (·.size != 0) = img.done := by
    rw [List.takeWhile_eq_self_iff]
    exact fun sect mem => by simpa using ok.used sect mem
  have sects : img.sects = img.done ++ [img.sect].takeWhile (·.size != 0) := by
    rw [FotaImg.sects, List.takeWhile_append, done, if_pos rfl]
  rw [FotaImg.cells, FotaImg.segments, sects]
  by_cases empty : img.sect.size = 0
  · have nothing : img.bytes img.sect = [] := by simp [FotaImg.bytes, empty]
    simp [empty, Segments.cells, Segment.cells, nothing]
  · simp [empty]

/-! ### Storing a record -/

/-- The last section goes on at `base`. -/
def Continues (wsize : Nat) (base : UInt32) (img : FotaImg) : Prop :=
  img.sect.base + (img.sect.size >>> UInt32.ofNat wsize) = base

instance : Decidable (Continues wsize base img) := inferInstanceAs (Decidable (_ = _))

/-- The image with a new section in use. -/
def FotaImg.fresh (img : FotaImg) (done : List ImgSect) (base dlen : UInt32) : FotaImg :=
  ⟨done, ⟨base, dlen, img.buff.length⟩, img.buff⟩

/-- The section in use is taken while empty, continued, or closed for a new one. -/
theorem fotaSection_cases (wsize : Nat) (base dlen : UInt32) (img : FotaImg) :
    (img.sect.size = 0 ∧ fotaSection wsize base dlen img = some (img.fresh img.done base dlen)) ∨
    (img.sect.size ≠ 0 ∧ Continues wsize base img ∧ fotaSection wsize base dlen img =
      some (if img.sect.size + dlen = 0 then img.fresh img.done base dlen
        else { img with sect := { img.sect with size := img.sect.size + dlen } })) ∨
    (img.sect.size ≠ 0 ∧ ¬ Continues wsize base img ∧ fotaSection wsize base dlen img =
      if img.done.length + 1 < imageMaxSect then
        some (img.fresh (img.done ++ [img.sect]) base dlen) else none) := by
  by_cases empty : img.sect.size = 0
  · refine .inl ⟨empty, ?_⟩
    simp [fotaSection, empty, FotaImg.fresh]
  · by_cases same : Continues wsize base img
    · refine .inr (.inl ⟨empty, same, ?_⟩)
      have same' : img.sect.base + (img.sect.size >>> UInt32.ofNat wsize) = base := same
      simp only [fotaSection, ne_eq, empty, not_false_eq_true, if_true, same', Option.map_some]
      rfl
    · refine .inr (.inr ⟨empty, same, ?_⟩)
      have other : ¬ img.sect.base + (img.sect.size >>> UInt32.ofNat wsize) = base := same
      simp only [fotaSection, ne_eq, empty, not_false_eq_true, if_true, other, if_false]
      split <;> rfl

/-- The segment in use as the last one. -/
theorem FotaImg.segments_eq (img : FotaImg) : img.segments =
    (img.done.map fun sect => ⟨sect.base, img.bytes sect⟩) ++ [⟨img.sect.base, img.bytes img.sect⟩] := by
  simp [FotaImg.segments]

theorem ImgOk.continues_iff (ok : ImgOk wsize img) (small : wsize < 32) :
    Continues wsize base img ↔
      wordNext wsize img.sect.base (img.bytes img.sect).length = base := by
  rw [Continues, wordNext, ok.length_bytes (by simp), shift_words small]

theorem ImgOk.place_segments (ok : ImgOk wsize img) (small : wsize < 32) (data : List UInt8) :
    place (wordNext wsize) ⟨base, data⟩ img.segments =
      (img.done.map fun sect => ⟨sect.base, img.bytes sect⟩) ++
        if img.sect.size = 0 then [⟨base, data⟩]
        else if Continues wsize base img then [⟨img.sect.base, img.bytes img.sect ++ data⟩]
        else [⟨img.sect.base, img.bytes img.sect⟩, ⟨base, data⟩] := by
  have mem : img.sect ∈ img.done ++ [img.sect] := by simp
  have length := ok.length_bytes mem
  have empty : img.bytes img.sect = [] ↔ img.sect.size = 0 := by
    rw [← List.length_eq_zero_iff, length, ← UInt32.toNat_inj]
    rfl
  rw [img.segments_eq, place_concat, place]
  simp only [empty, ← ok.continues_iff small]

/-- There is no section left exactly when the record would need one too many. -/
theorem ImgOk.section_none (ok : ImgOk wsize img) (small : wsize < 32) (base dlen : UInt32)
    (data : List UInt8) : fotaSection wsize base dlen img = none ↔
      imageMaxSect < (place (wordNext wsize) ⟨base, data⟩ img.segments).length := by
  have room := ok.room
  rw [ok.place_segments small]
  rcases fotaSection_cases wsize base dlen img with ⟨empty, eq⟩ | ⟨used, same, eq⟩ |
    ⟨used, other, eq⟩
  · simp [eq, empty]
    omega
  · simp [eq, used, same]
    omega
  · rw [eq, if_neg used, if_neg other, List.length_append, List.length_map]
    split
    · simp; omega
    · simp; omega

/-- What was stored before a copy stays where it is. -/
theorem bytes_append {sect : ImgSect} {done : List ImgSect} {last : ImgSect} (data : List UInt8)
    (inside : sect.data + sect.size.toNat ≤ img.buff.length) :
    FotaImg.bytes ⟨done, last, img.buff ++ data⟩ sect = img.bytes sect := by
  rw [FotaImg.bytes, FotaImg.bytes, List.drop_append_of_le_length (by omega),
    List.take_append_of_le_length (by rw [List.length_drop]; omega)]

/-- A record stored in a new section behind `done`. -/
theorem ImgOk.opened (ok : ImgOk wsize img) (base : UInt32) {done : List ImgSect}
    {data : List UInt8}
    (size : dlen.toNat = data.length) (fits : img.buff.length + data.length ≤ imageSize)
    (words : 2 ^ wsize ∣ data.length) (room : done.length + 1 ≤ imageMaxSect)
    (old : ∀ sect ∈ done, sect ∈ img.done ++ [img.sect] ∧ sect.size ≠ 0) :
    ImgOk wsize ⟨done, ⟨base, dlen, img.buff.length⟩, img.buff ++ data⟩ ∧
      FotaImg.segments ⟨done, ⟨base, dlen, img.buff.length⟩, img.buff ++ data⟩ =
        (done.map fun sect => ⟨sect.base, img.bytes sect⟩) ++ [⟨base, data⟩] := by
  constructor
  · refine ⟨by simpa using fits, room, ?_, fun sect mem => (old sect mem).2, ?_, ?_⟩
    · intro sect mem
      rcases List.mem_append.mp mem with mem | mem
      · have inside := ok.inside sect (old sect mem).1
        simp only [List.length_append]
        omega
      · obtain rfl := List.mem_singleton.mp mem
        simp [size]
    · exact fun _ => by simp [size]
    · intro sect mem
      rcases List.mem_append.mp mem with mem | mem
      · exact ok.words sect (old sect mem).1
      · obtain rfl := List.mem_singleton.mp mem
        exact size ▸ words
  · have stored : FotaImg.bytes ⟨done, ⟨base, dlen, img.buff.length⟩, img.buff ++ data⟩
        ⟨base, dlen, img.buff.length⟩ = data := by
      simp [FotaImg.bytes, size]
    rw [FotaImg.segments_eq, stored]
    congr 1
    refine List.map_congr_left fun sect mem => ?_
    rw [bytes_append data (ok.inside sect (old sect mem).1)]

/-- A record that continues the section in use. -/
theorem ImgOk.grown (ok : ImgOk wsize img) {data : List UInt8} (used : img.sect.size ≠ 0)
    (size : dlen.toNat = data.length) (fits : img.buff.length + data.length ≤ imageSize)
    (words : 2 ^ wsize ∣ data.length) :
    img.sect.size + dlen ≠ 0 ∧
    ImgOk wsize ⟨img.done, { img.sect with size := img.sect.size + dlen }, img.buff ++ data⟩ ∧
      FotaImg.segments
          ⟨img.done, { img.sect with size := img.sect.size + dlen }, img.buff ++ data⟩ =
        (img.done.map fun sect => ⟨sect.base, img.bytes sect⟩) ++
          [⟨img.sect.base, img.bytes img.sect ++ data⟩] := by
  have last := ok.last used
  have pos : 0 < img.sect.size.toNat := by
    refine Nat.pos_of_ne_zero fun zero => used (UInt32.toNat_inj.mp ?_)
    rw [zero]
    rfl
  have small : imageSize < 2 ^ 32 := by decide
  -- the sum does not wrap, for it fits in the buffer
  have sum : (img.sect.size + dlen).toNat = img.sect.size.toNat + data.length := by
    rw [UInt32.toNat_add, size, Nat.mod_eq_of_lt (by omega)]
  refine ⟨?_, ⟨by simpa using fits, ok.room, ?_, ok.used, ?_, ?_⟩, ?_⟩
  · intro zero
    rw [zero] at sum
    simp at sum
    omega
  · intro sect mem
    simp only [List.length_append]
    rcases List.mem_append.mp mem with mem | mem
    · have inside := ok.inside sect (List.mem_append_left _ mem)
      omega
    · obtain rfl := List.mem_singleton.mp mem
      dsimp only
      omega
  · intro _
    simp only [List.length_append]
    omega
  · intro sect mem
    rcases List.mem_append.mp mem with mem | mem
    · exact ok.words sect (List.mem_append_left _ mem)
    · obtain rfl := List.mem_singleton.mp mem
      dsimp only
      rw [sum]
      exact Nat.dvd_add (ok.words _ (by simp)) words
  · rw [FotaImg.segments_eq]
    congr 1
    · refine List.map_congr_left fun sect mem => ?_
      rw [bytes_append data (ok.inside sect (List.mem_append_left _ mem))]
    · have all : FotaImg.bytes ⟨img.done, { img.sect with size := img.sect.size + dlen },
          img.buff ++ data⟩ { img.sect with size := img.sect.size + dlen } =
          img.bytes img.sect ++ data := by
        rw [FotaImg.bytes, FotaImg.bytes, List.drop_append_of_le_length (by dsimp only; omega)]
        dsimp only
        rw [sum, List.take_of_length_le, List.take_of_length_le]
        · rw [List.length_drop]; omega
        · rw [List.length_append, List.length_drop]; omega
      rw [all]

/-- A record stored in the section found for it. -/
theorem ImgOk.stored (ok : ImgOk wsize img) (small : wsize < 32) {data : List UInt8}
    (size : dlen.toNat = data.length) (fits : img.buff.length + data.length ≤ imageSize)
    (words : 2 ^ wsize ∣ data.length) {img' : FotaImg}
    (h : fotaSection wsize base dlen img = some img') :
    img'.buff = img.buff ∧ ImgOk wsize ⟨img'.done, img'.sect, img.buff ++ data⟩ ∧
      FotaImg.segments ⟨img'.done, img'.sect, img.buff ++ data⟩ =
        place (wordNext wsize) ⟨base, data⟩ img.segments := by
  rw [ok.place_segments small]
  rcases fotaSection_cases wsize base dlen img with ⟨empty, eq⟩ | ⟨used, same, eq⟩ |
    ⟨used, other, eq⟩
  · obtain rfl := Option.some.inj (eq.symm.trans h)
    rw [if_pos empty]
    exact ⟨rfl, ok.opened base size fits words ok.room
      fun sect mem => ⟨List.mem_append_left _ mem, ok.used sect mem⟩⟩
  · obtain ⟨grown, next⟩ := ok.grown used size fits words
    rw [if_neg grown] at eq
    obtain rfl := Option.some.inj (eq.symm.trans h)
    rw [if_neg used, if_pos same]
    exact ⟨rfl, next⟩
  · rw [eq, Option.ite_none_right_eq_some] at h
    obtain ⟨room, h⟩ := h
    obtain rfl := Option.some.inj h
    rw [if_neg used, if_neg other]
    have old : ∀ sect ∈ img.done ++ [img.sect], sect ∈ img.done ++ [img.sect] ∧ sect.size ≠ 0 := by
      intro sect mem
      rcases List.mem_append.mp mem with done | last
      · exact ⟨mem, ok.used sect done⟩
      · exact ⟨mem, List.mem_singleton.mp last ▸ used⟩
    obtain ⟨next, segments⟩ := ok.opened base size fits words
      (by rw [List.length_append]; exact room) old
    refine ⟨rfl, next, segments.trans ?_⟩
    simp

/-- The segments after one more record. -/
def FotaImg.placed (wsize : Nat) (img : FotaImg) (base : UInt32) (data : List UInt8) :
    List (Segment UInt32 UInt8) := place (wordNext wsize) ⟨base, data⟩ img.segments

theorem ImgAddr.mpos (home : ImgAddr buff) (ok : ImgOk wsize img) :
    (buff + UInt32.ofNat img.buff.length).toNat = buff.toNat + img.buff.length ∧
      (buff + UInt32.ofNat imageSize).toNat = buff.toNat + imageSize := by
  have high := home.high
  have fits := ok.fits
  constructor
  · rw [UInt32.toNat_add, UInt32.toNat_ofNat', Nat.mod_eq_of_lt (by omega),
      Nat.mod_eq_of_lt (by omega)]
  · rw [UInt32.toNat_add, UInt32.toNat_ofNat', Nat.mod_eq_of_lt (by omega),
      Nat.mod_eq_of_lt (by omega)]

/-- A record of its real length is stored, if there is room for its bytes and a section for
it. -/
theorem ImgOk.store (ok : ImgOk wsize img) (home : ImgAddr buff) (small : wsize < 32)
    (base : UInt32) {dpos data : List UInt8} (size : dlen.toNat = data.length) (short : data.length ≤ 255)
    (source : dpos.take dlen.toNat = data) (words : 2 ^ wsize ∣ data.length) :
    (¬ (img.buff.length + data.length ≤ imageSize ∧
        (img.placed wsize base data).length ≤ imageMaxSect) ∧
      fotaStore buff wsize base dlen dpos img = .error .fail) ∨
    (img.buff.length + data.length ≤ imageSize ∧
      (img.placed wsize base data).length ≤ imageMaxSect ∧
      ∃ img', fotaStore buff wsize base dlen dpos img = .ok img' ∧ ImgOk wsize img' ∧
        img'.buff = img.buff ++ data ∧ img'.segments = img.placed wsize base data) := by
  obtain ⟨mpos, top⟩ := home.mpos ok
  have high := home.high
  have fits := ok.fits
  have passed : (buff + UInt32.ofNat img.buff.length + dlen > buff + UInt32.ofNat imageSize) ↔
      imageSize < img.buff.length + data.length := by
    rw [gt_iff_lt, UInt32.lt_iff_toNat_lt, top, UInt32.toNat_add, mpos, size,
      Nat.mod_eq_of_lt (by omega)]
    omega
  unfold fotaStore
  simp only [passed]
  by_cases room : imageSize < img.buff.length + data.length
  · exact .inl ⟨by omega, if_pos room⟩
  · rw [if_neg room]
    have none := ok.section_none small base dlen data
    cases found : fotaSection wsize base dlen img with
    | none =>
      have many : imageMaxSect < (img.placed wsize base data).length := none.mp found
      exact .inl ⟨fun left => absurd left.2 (Nat.not_le.mpr many), rfl⟩
    | some img' =>
      have sections : (img.placed wsize base data).length ≤ imageMaxSect := by
        refine Nat.not_lt.mp fun many => ?_
        exact nomatch found.symm.trans (none.mpr many)
      obtain ⟨same, next, segments⟩ := ok.stored small size (by omega) words found
      refine .inr ⟨by omega, sections, _, ?_, next, rfl, segments⟩
      dsimp only
      rw [same, source, if_pos (by omega)]

/-- A length that wrapped around passes the size check, and the copy leaves the buffer. -/
theorem ImgOk.store_wrapped (ok : ImgOk wsize img) (home : ImgAddr buff) (small : wsize < 32)
    (base : UInt32) {dpos : List UInt8} {short : Nat} (pos : 0 < short) (le : short ≤ 4)
    (wrapped : dlen.toNat = 2 ^ 32 - short) (data : List UInt8) :
    fotaStore buff wsize base dlen dpos img =
      .error (if (img.placed wsize base data).length ≤ imageMaxSect then .fault else .fail) := by
  obtain ⟨mpos, top⟩ := home.mpos ok
  have low := home.low
  have high := home.high
  have fits := ok.fits
  have size : imageSize < 2 ^ 32 - 4 := by decide
  -- `mpos + dlen` lies below `mpos`
  have back : (buff + UInt32.ofNat img.buff.length + dlen).toNat =
      buff.toNat + img.buff.length - short := by
    rw [UInt32.toNat_add, mpos, wrapped]
    omega
  have passed : ¬ (buff + UInt32.ofNat img.buff.length + dlen > buff + UInt32.ofNat imageSize) := by
    rw [gt_iff_lt, UInt32.lt_iff_toNat_lt, top, back]
    omega
  have none := ok.section_none small base dlen data
  unfold fotaStore
  dsimp only
  rw [if_neg passed]
  cases found : fotaSection wsize base dlen img with
  | none =>
    have many : imageMaxSect < (img.placed wsize base data).length := none.mp found
    rw [if_neg (Nat.not_le.mpr many)]
  | some img' =>
    have sections : (img.placed wsize base data).length ≤ imageMaxSect := by
      refine Nat.not_lt.mp fun many => ?_
      exact nomatch found.symm.trans (none.mpr many)
    dsimp only
    rw [if_pos sections, if_neg (by omega)]

/-- A record adds its bytes with their addresses. -/
theorem ImgOk.cells_placed (ok : ImgOk wsize img) {img' : FotaImg} (ok' : ImgOk wsize img')
    {data : List UInt8} (segments : img'.segments = img.placed wsize base data) :
    img'.cells wsize = img.cells wsize ++ Segment.cells (wordAddr wsize) ⟨base, data⟩ := by
  rw [ok'.cells_segments, ok.cells_segments, segments, FotaImg.placed]
  apply cells_place
  intro segment mem i
  obtain ⟨sect, inside, rfl⟩ := List.mem_map.mp mem
  apply wordAddr_next
  rw [ok.length_bytes inside]
  exact ok.words sect inside

end Fota
