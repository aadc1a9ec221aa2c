import TBoxMpu.Gb32960.Receive

/-!
# Reassembly of packets

## Main result

`receive_delivers_iff`: the packets delivered are those sent exactly if no chunk ends with
a start byte, no data unit is empty, and the start mark occurs nowhere but where a packet
begins.

## Proof strategy

Under the conditions the look ahead sees every packet as `marked`, and is then right at
every byte. Conversely, what is delivered has no more bytes than came in (`feed_sound`):
if it is all that came in, then no byte was thrown away, and a start mark was only ever
seen between two packets.
-/

namespace Gb32960

variable {S : Type} {handle : List UInt8 → GbProt S → Int × GbProt S} {st : GbProt S}

/-! ### Packets -/

/-- Start mark, head and data length, the data unit and the checksum byte. -/
structure GbPacket (pack : List UInt8) : Prop where
  mark : pack[0]? = some gbStartByte ∧ pack[1]? = some gbStartByte
  length : pack.length = 25 + declared pack
  fits : pack.length ≤ gbRcvbufSize

theorem GbPacket.ne_nil {pack : List UInt8} (packet : GbPacket pack) : pack ≠ [] := by
  rintro rfl
  have long := packet.length
  rw [List.length_nil] at long
  omega

/-- A packet as the look ahead should see it. -/
def marked : List UInt8 → List (UInt8 × Bool)
  | [] => []
  | byte :: rest => (byte, true) :: rest.map fun byte => (byte, false)

/-- The rest of a packet is gathered and the packet handled. -/
theorem feed_rest (handle : List UInt8 → GbProt S → Int × GbProt S) (st : GbProt S)
    (rest more : List (UInt8 × Bool)) {pack : List UInt8} (packet : GbPacket pack)
    (data : 1 ≤ declared pack) (plain : ∀ look ∈ rest, look.2 = false) (left : rest ≠ [])
    (shape : Shape st.stat) (begun : st.stat.rcvbuf ≠ []) (busy : st.stat.rcvstep ≠ .none)
    (bytes : st.stat.rcvbuf ++ rest.map Prod.fst = pack) :
    ∃ stat, Shape stat ∧ stat.rcvstep = .none ∧ gbFeed handle st (rest ++ more) =
      let (ret, st') := handle pack { st with stat }
      if ret = 0 then (gbFeed handle st' more).map fun (ret, st, packs) => (ret, st, pack :: packs)
      else some (ret, st', [pack]) := by
  induction rest generalizing st with
  | nil => exact absurd rfl left
  | cons look rest ih =>
    obtain ⟨byte, start⟩ := look
    obtain rfl : start = false := plain (byte, start) (by simp)
    have fits := packet.fits
    have size := packet.length
    have total := congrArg List.length bytes
    simp only [List.length_append, List.map_cons, List.length_cons, List.length_map] at total
    -- the buffer has room for the whole packet
    cases made : gbMakeupByte false byte st.stat with
    | none =>
      have full := (gbMakeupByte_none.mp made).2
      omega
    | some next =>
      obtain ⟨complete, stat⟩ := next
      obtain ⟨shape', step⟩ := shape.byte made
      cases step with
      | skip idle => exact absurd idle busy
      | join _ _ buf done =>
        have begun' : stat.rcvbuf ≠ [] := by simp [buf]
        have bytes' : stat.rcvbuf ++ rest.map Prod.fst = pack := by simpa [buf] using bytes
        -- the last byte completes the packet, any other does not
        cases rest with
        | nil =>
          have whole : stat.rcvbuf = pack := by simpa using bytes'
          have idle := (shape'.none_iff begun').mpr ⟨whole ▸ size, whole ▸ data⟩
          refine ⟨stat, shape', idle, ?_⟩
          rw [List.cons_append, gbFeed, made, done.mpr idle, ← whole]
          rfl
        | cons look' rest =>
          have busy' : stat.rcvstep ≠ .none := by
            intro idle
            obtain ⟨len, -⟩ := (shape'.none_iff begun').mp idle
            have same := declared_append (by omega : 24 ≤ stat.rcvbuf.length)
              ((look' :: rest).map Prod.fst)
            rw [bytes'] at same
            have total' := congrArg List.length bytes'
            simp only [List.length_append, List.map_cons, List.length_cons] at total'
            omega
          obtain rfl : complete = false := Bool.eq_false_iff.mpr fun c => busy' (done.mp c)
          obtain ⟨stat', shape'', idle, eq⟩ := ih { st with stat }
            (fun look mem => plain look (List.mem_cons_of_mem _ mem)) (by simp) shape' begun'
            busy' bytes'
          refine ⟨stat', shape'', idle, ?_⟩
          rw [List.cons_append, gbFeed, made]
          exact eq

/-- A packet that the look ahead sees as it should is gathered and handled. -/
theorem feed_packet (handle : List UInt8 → GbProt S → Int × GbProt S) {pack : List UInt8}
    (packet : GbPacket pack) (data : 1 ≤ declared pack)
    (shape : Shape st.stat) (more : List (UInt8 × Bool)) :
    ∃ stat, Shape stat ∧ gbFeed handle st (marked pack ++ more) =
      let (ret, st') := handle pack { st with stat }
      if ret = 0 then (gbFeed handle st' more).map fun (ret, st, packs) => (ret, st, pack :: packs)
      else some (ret, st', [pack]) := by
  have long := packet.length
  cases pack with
  | nil => exact absurd rfl packet.ne_nil
  | cons byte rest =>
    cases made : gbMakeupByte true byte st.stat with
    | none => exact nomatch (gbMakeupByte_none.mp made).1
    | some next =>
      obtain ⟨complete, stat⟩ := next
      obtain ⟨shape', step⟩ := shape.byte made
      cases step with
      | start head buf =>
        have left : rest ≠ [] := by
          rintro rfl
          rw [List.length_singleton] at long
          omega
        have busy : stat.rcvstep ≠ .none := by simp [head]
        obtain ⟨stat', shape'', -, eq⟩ := feed_rest handle { st with stat }
          (rest.map fun byte => (byte, false)) more packet data (by simp)
          (by simpa using left) shape' (by simp [buf]) busy
          (by simp [buf, Function.comp_def])
        refine ⟨stat', shape'', ?_⟩
        rw [marked, List.cons_append, gbFeed, made]
        exact eq

theorem feed_packets (keeps : Keeps handle) {packets : List (List UInt8)}
    (packet : ∀ pack ∈ packets, GbPacket pack) (data : ∀ pack ∈ packets, 1 ≤ declared pack)
    (shape : Shape st.stat) :
    ∃ ret st' packs, gbFeed handle st (packets.flatMap marked) = some (ret, st', packs) ∧
      packs <+: packets ∧ (ret = 0 → packs = packets) := by
  induction packets generalizing st with
  | nil => exact ⟨0, st, [], rfl, List.prefix_refl [], fun _ => rfl⟩
  | cons pack rest ih =>
    obtain ⟨stat, shape', eq⟩ := feed_packet handle (packet pack (by simp))
      (data pack (by simp)) shape (rest.flatMap marked)
    rw [List.flatMap_cons, eq]
    dsimp only
    split
    next going =>
      obtain ⟨ret, st', packs, fed, before, whole⟩ := ih
        (fun p mem => packet p (by simp [mem])) (fun p mem => data p (by simp [mem]))
        (shape'.kept (keeps.going going))
      rw [fed]
      exact ⟨ret, st', pack :: packs, rfl, (List.prefix_cons_inj pack).mpr before,
        fun zero => congrArg (pack :: ·) (whole zero)⟩
    next ended =>
      exact ⟨_, _, [pack], rfl, ⟨rest, rfl⟩, fun zero => absurd zero ended⟩

theorem marked_getElem? (s : List UInt8) (i : Nat) :
    (marked s)[i]? = s[i]?.map fun byte => (byte, decide (i = 0)) := by
  cases s with
  | nil => rfl
  | cons byte rest => cases i <;> simp [marked]

/-- A start mark stands nowhere but where a packet begins. -/
def MarksAtStarts (packets : List (List UInt8)) : Prop :=
  ∀ p, StartMark packets.flatten p →
    ∃ done todo, packets = done ++ todo ∧ p = done.flatten.length

theorem MarksAtStarts.tail {pack : List UInt8} {packets : List (List UInt8)} (ne : pack ≠ [])
    (starts : MarksAtStarts (pack :: packets)) : MarksAtStarts packets := by
  intro p mark
  have shifted : StartMark (pack :: packets).flatten (pack.length + p) := by
    simpa [StartMark, List.flatten_cons, List.getElem?_append_right, Nat.add_assoc] using mark
  obtain ⟨done, todo, parts, pos⟩ := starts _ shifted
  cases done with
  | nil =>
    simp [ne] at pos
  | cons first done =>
    obtain ⟨rfl, rfl⟩ := List.cons.inj parts
    refine ⟨done, todo, rfl, ?_⟩
    simp only [List.flatten_cons, List.length_append] at pos
    omega

/-- Then the look ahead sees every packet as it should. -/
theorem looks_packets {packets : List (List UInt8)} (packet : ∀ pack ∈ packets, GbPacket pack)
    (starts : MarksAtStarts packets) : looks 0 packets.flatten = packets.flatMap marked := by
  induction packets with
  | nil => rfl
  | cons pack rest ih =>
    have ne := (packet pack (by simp)).ne_nil
    rw [List.flatMap_cons, ← ih (fun p mem => packet p (by simp [mem])) (starts.tail ne),
      List.flatten_cons]
    apply List.ext_getElem?
    intro i
    have size : (marked pack).length = pack.length := by
      cases pack <;> simp [marked]
    by_cases inside : i < pack.length
    · have first : StartMark (pack ++ rest.flatten) i ↔ i = 0 := by
        constructor
        · intro mark
          obtain ⟨done, todo, parts, pos⟩ := starts i (by rwa [List.flatten_cons])
          cases done with
          | nil => exact pos
          | cons first done =>
            obtain ⟨rfl, rfl⟩ := List.cons.inj parts
            simp only [List.flatten_cons, List.length_append] at pos
            omega
        · rintro rfl
          obtain ⟨one, two⟩ := (packet pack (by simp)).mark
          have second : 1 < pack.length := (List.getElem?_eq_some_iff.mp two).1
          exact ⟨by rwa [List.getElem?_append_left inside],
            by rwa [List.getElem?_append_left second]⟩
      rw [looks_mark, List.getElem?_append_left inside,
        List.getElem?_append_left (by omega : i < (marked pack).length), marked_getElem?]
      simp only [first]
    · have outside : pack.length ≤ i := Nat.le_of_not_lt inside
      rw [looks_append, List.getElem?_append_right (by rwa [looks_length]), looks_length,
        List.getElem?_append_right (size ▸ outside), size]

/-! ### Delivery -/

/-- Whatever stands beyond the chunks and whatever is done with a packet, the packets
delivered are these; fewer if one of them ends the session. -/
def Delivers (st : GbProt S) (chunks packets : List (List UInt8)) : Prop :=
  ∀ handle, Keeps handle → ∀ beyond : List UInt8, beyond.length = chunks.length →
    ∃ ret st' packs, gbReceiveChunks handle st (chunks.zip beyond) = some (ret, st', packs) ∧
      packs <+: packets ∧ (ret = 0 → packs = packets)

/-- When every byte of a stream comes out in a packet, a start mark is only seen between
packets, and no byte there is without one. -/
theorem feed_boundary (keeps : Keeps handle) (shape : Shape st.stat)
    (idle : st.stat.rcvstep = .none) {l m : List (UInt8 × Bool)} {byte : UInt8} {start : Bool}
    {st' : GbProt S} {packs : List (List UInt8)}
    (h : gbFeed handle st (l ++ (byte, start) :: m) = some (0, st', packs))
    (all : packs.flatten.length = l.length + 1 + m.length) :
    ∃ st₁ packs₁ packs₂, gbFeed handle st l = some (0, st₁, packs₁) ∧ packs = packs₁ ++ packs₂ ∧
      (start = true ↔ packs₁.flatten.length = l.length) := by
  obtain ⟨st₁, packs₁, packs₂, first, second, rfl⟩ := feed_split h
  have before := feed_sound keeps shape first
  have bytes₁ := before.bytes
  have none : gathered st.stat = 0 := if_pos idle
  rw [List.flatten_append, List.length_append] at all
  refine ⟨st₁, packs₁, packs₂, first, rfl, ?_⟩
  obtain ⟨⟨complete, stat⟩, made, rest⟩ := Option.bind_eq_some_iff.mp second
  obtain ⟨shape', step⟩ := before.shape.byte made
  cases step with
  | start head buf =>
    have bytes₂ := (feed_sound keeps shape' rest).bytes
    have one : gathered stat = 1 := by simp [gathered, head, buf]
    dsimp only at bytes₂
    simp only [true_iff]
    omega
  | skip _ idle' buf =>
    have bytes₂ := (feed_sound keeps shape' rest).bytes
    have zero : gathered stat = 0 := if_pos idle'
    dsimp only at bytes₂
    omega
  | join complete busy buf done =>
    have begun : 1 ≤ gathered st₁.stat := by
      rw [gathered, if_neg busy]
      by_contra empty
      exact busy (before.shape.idle_of_nil (List.length_eq_zero_iff.mp (by omega)))
    simp only [Bool.false_eq_true, false_iff]
    omega

/-- The packets sent are those delivered exactly if no chunk ends with a start byte, no
data unit is empty, and the start mark occurs nowhere but where a packet begins. -/
theorem receive_delivers_iff (fresh : GbFresh st.stat) {chunks packets : List (List UInt8)}
    (packet : ∀ pack ∈ packets, GbPacket pack) (cut : chunks.flatten = packets.flatten) :
    Delivers st chunks packets ↔
      (∀ chunk ∈ chunks, chunk.getLast? ≠ some gbStartByte) ∧
      (∀ pack ∈ packets, 1 ≤ declared pack) ∧ MarksAtStarts packets := by
  have bytes : ∀ beyond : List UInt8, beyond.length = chunks.length →
      (chunks.zip beyond).map Prod.fst = chunks :=
    fun beyond size => List.map_fst_zip (by omega)
  constructor
  · intro delivers
    have fed : ∀ beyond : List UInt8, beyond.length = chunks.length → ∃ st',
        gbFeed goOn st ((chunks.zip beyond).flatMap fun chunk => looks chunk.2 chunk.1) =
          some (0, st', packets) := by
      intro beyond size
      obtain ⟨ret, st', packs, run, -, whole⟩ := delivers goOn goOn_keeps beyond size
      rw [gbReceiveChunks_eq] at run
      obtain rfl := feed_goOn run
      exact ⟨st', whole rfl ▸ run⟩
    have last : ∀ chunk ∈ chunks, chunk.getLast? ≠ some gbStartByte := by
      intro chunk mem last
      obtain ⟨_, l, m, split⟩ := chunk_split mem last
      have boundary : ∀ x, ∃ st₁ packs₁, gbFeed goOn st l = some (0, st₁, packs₁) ∧
          (startsAt gbStartByte x = true ↔ packs₁.flatten.length = l.length) := by
        intro x
        obtain ⟨beyond, size, eq, -, total⟩ := split x
        obtain ⟨st', run⟩ := fed beyond size
        rw [eq] at run
        obtain ⟨st₁, packs₁, packs₂, first, -, iff⟩ := feed_boundary goOn_keeps fresh.shape
          fresh.idle run (cut ▸ total.symm)
        exact ⟨st₁, packs₁, first, iff⟩
      -- the same bytes come before, so both answers of the look ahead cannot be right
      obtain ⟨st₁, packs₁, first, seen⟩ := boundary gbStartByte
      obtain ⟨st₂, packs₂, first', unseen⟩ := boundary 0
      obtain ⟨-, -, rfl⟩ : (0 : Int) = 0 ∧ st₁ = st₂ ∧ packs₁ = packs₂ := by
        simpa using first.symm.trans first'
      exact absurd (unseen.mpr (seen.mp rfl)) (by decide)
    obtain ⟨st', run⟩ := fed (List.replicate chunks.length 0) List.length_replicate
    have chunkLast : ∀ chunk ∈ chunks.zip (List.replicate chunks.length (0 : UInt8)),
        chunk.1.getLast? ≠ some gbStartByte :=
      fun chunk mem => last chunk.1 (List.of_mem_zip mem).1
    rw [looks_chunks chunkLast, bytes _ List.length_replicate, cut] at run
    refine ⟨last, (feed_sound goOn_keeps fresh.shape run).declared, fun p mark => ?_⟩
    obtain ⟨inside, parts⟩ := looks_split mark
    rw [parts] at run
    obtain ⟨-, packs₁, packs₂, -, rfl, boundary⟩ := feed_boundary goOn_keeps fresh.shape
      fresh.idle run (by simp only [List.length_take, List.length_drop, looks_length]; omega)
    refine ⟨packs₁, packs₂, rfl, ?_⟩
    rw [boundary.mp rfl, List.length_take, looks_length]
    omega
  · rintro ⟨last, data, starts⟩ handle keeps beyond size
    have chunkLast : ∀ chunk ∈ chunks.zip beyond, chunk.1.getLast? ≠ some gbStartByte :=
      fun chunk mem => last chunk.1 (List.of_mem_zip mem).1
    rw [gbReceiveChunks_eq, looks_chunks chunkLast, bytes beyond size, cut,
      looks_packets packet starts]
    exact feed_packets keeps packet data fresh.shape

theorem receive_delivers_halves :
    Delivers receiver [(answer [0x2A]).take 10, (answer [0x2A]).drop 10] [answer [0x2A]] := by
  have fresh : GbFresh receiver.stat := ⟨rfl, rfl⟩
  have packet : ∀ pack ∈ [answer [0x2A]], GbPacket pack := by
    intro pack mem
    rw [List.mem_singleton.mp mem]
    exact ⟨by decide, by decide, by decide⟩
  have cut : [(answer [0x2A]).take 10, (answer [0x2A]).drop 10].flatten =
      [answer [0x2A]].flatten := rfl
  refine (receive_delivers_iff fresh packet cut).mpr ⟨by decide, by decide, ?_⟩
  intro p mark
  have inside : p < 26 := (List.getElem?_eq_some_iff.mp mark.1).1
  have first : ∀ p < 26, StartMark [answer [0x2A]].flatten p → p = 0 := by decide
  exact ⟨[], [answer [0x2A]], rfl, first p inside mark⟩

/-- A data unit with a start mark in it: the packet is never delivered. -/
theorem mark_in_data_lost : GbPacket (answer [0x23, 0x23]) ∧
    ¬ Delivers receiver [answer [0x23, 0x23]] [answer [0x23, 0x23]] := by
  refine ⟨⟨by decide, by decide, by decide⟩, fun delivers => ?_⟩
  obtain ⟨ret, st', packs, run, -, whole⟩ := delivers goOn goOn_keeps [0] rfl
  have lost : ∃ st', gbReceiveChunks goOn receiver [(answer [0x23, 0x23], 0)] =
      some (0, st', []) := by
    rw [gbReceiveChunks_eq]
    exact ⟨_, rfl⟩
  obtain ⟨st'', lost⟩ := lost
  obtain ⟨rfl, -, rfl⟩ : 0 = ret ∧ st'' = st' ∧ [] = packs := by
    simpa using lost.symm.trans run
  exact absurd (whole rfl) (by decide)

end Gb32960
