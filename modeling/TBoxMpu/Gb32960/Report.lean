import TBoxMpu.Gb32960.Protocol

/-!
# Sending one report

`gb_do_report` takes a pack off its list and must put it on a list again on every exit.
The exit for a socket with too little room does not: `gbDoReport_keeps_iff` says exactly
on which buffer sizes nothing is lost.
-/

namespace Gb32960

variable {S : Type} (api : SockApi S)

/-- After a call of `gb_do_report` the report it took is at the tail of the transmit list,
its bytes accepted by the socket, or again on the list recorded as its home; every other
report is where it was. -/
def ReportKept (before after : GbProt S) : Prop :=
  after.store.pack = before.store.pack ∧
  match gbDataGetPack before.store with
  | none => after.store.lists = before.store.lists
  | some (rpt, rest) =>
    let buf := gbPackReport before.vars (before.store.pack rpt)
    let home := (before.store.pack rpt).list
    ((api.send before.sock buf (some .ackPack)).1 > 0 ∧
      after.store.lists =
        Function.update rest.lists .trans (rest.lists .trans ++ [rpt])) ∨
    ∃ older newer, rest.lists home = older ++ newer ∧
      after.store.lists = Function.update rest.lists home (older ++ rpt :: newer)

/-- The three exits once a pack is in hand: no room, refused or failed, and sent. -/
theorem gbSendReport_cases (rpt : GbNode) (st : GbProt S) :
    ((api.bufsz st.sock).toUInt32.toNat < gbReportBufsz + gbSocketRsvd ∧
      (gbSendReport api rpt st).2.store = st.store) ∨
    (gbReportBufsz + gbSocketRsvd ≤ (api.bufsz st.sock).toUInt32.toNat ∧
      (api.send st.sock (gbPackReport st.vars (st.store.pack rpt)) (some .ackPack)).1 ≤ 0 ∧
      (gbSendReport api rpt st).2.store = gbDataPutBack st.store rpt) ∨
    (gbReportBufsz + gbSocketRsvd ≤ (api.bufsz st.sock).toUInt32.toNat ∧
      0 < (api.send st.sock (gbPackReport st.vars (st.store.pack rpt)) (some .ackPack)).1 ∧
      (gbSendReport api rpt st).2.store = gbDataPutSend st.store rpt) := by
  unfold gbSendReport
  split
  next room =>
    dsimp only
    split
    next failed => exact .inr (.inl ⟨room, Int.le_of_lt failed, rfl⟩)
    next working =>
      split
      next refused => exact .inr (.inl ⟨room, Int.le_of_eq refused, rfl⟩)
      next sent =>
        exact .inr (.inr ⟨room, lt_of_le_of_ne (Int.not_lt.mp working) (Ne.symm sent), rfl⟩)
  next room => exact .inl ⟨Nat.lt_of_not_le room, rfl⟩

/-- The unsigned comparison of `gb_do_report` passes for every error of `sock_bufsz`. -/
theorem room_iff (bufsz : Int32) :
    gbReportBufsz + gbSocketRsvd ≤ bufsz.toUInt32.toNat ↔ bufsz < 0 ∨ 2304 ≤ bufsz := by
  rw [Int32.lt_iff_toInt_lt, Int32.le_iff_toInt_le]
  have value : bufsz.toInt = bufsz.toUInt32.toBitVec.toInt := rfl
  have range : bufsz.toUInt32.toNat < 2 ^ 32 := bufsz.toUInt32.toNat_lt
  rw [value, BitVec.toInt_eq_toNat_cond]
  simp only [UInt32.toNat_toBitVec]
  have zero : (0 : Int32).toInt = 0 := by decide
  have least : (2304 : Int32).toInt = 2304 := by decide
  rw [zero, least]
  unfold gbReportBufsz gbSocketRsvd
  split <;> omega

/-- `gb_do_report` keeps the report it takes exactly when there is none to take, or the
socket has room for the largest report, or its buffer size cannot be read. -/
theorem gbDoReport_keeps_iff (st : GbProt S) :
    ReportKept api st (gbDoReport api st).2 ↔
      gbDataNoreport st.store = true ∨ api.bufsz st.sock < 0 ∨ 2304 ≤ api.bufsz st.sock := by
  rw [← room_iff, gbDataNoreport_iff]
  unfold gbDoReport ReportKept
  cases got : gbDataGetPack st.store with
  | none => simp
  | some taken =>
    obtain ⟨rpt, rest⟩ := taken
    have pack : rest.pack = st.store.pack := by
      rcases gbDataGetPack_some got with ⟨_, -, rfl⟩ | ⟨-, -, _, -, rfl⟩ | ⟨-, -, _, -, rfl⟩ <;> rfl
    simp only [reduceCtorEq, false_or]
    rcases gbSendReport_cases api rpt { st with store := rest } with
      ⟨noRoom, store⟩ | ⟨room, refused, store⟩ | ⟨room, sent, store⟩
    · refine ⟨fun ⟨_, kept⟩ => ?_, fun room => absurd room (Nat.not_le.mpr noRoom)⟩
      -- the lists are those without the pack: one of them would have to be longer
      rw [store] at kept
      rcases kept with ⟨-, lists⟩ | ⟨older, newer, content, lists⟩
      · have trans := congrArg List.length (congrFun lists .trans)
        simp at trans
      · have home := congrArg List.length (congrFun lists (st.store.pack rpt).list)
        rw [Function.update_self, content] at home
        simp at home
    · refine ⟨fun _ => room, fun _ => ⟨by rw [store]; exact pack, .inr ⟨[], _, rfl, ?_⟩⟩⟩
      rw [store]
      simp [gbDataPutBack, GbStore.insertAfter, GbStore.setList, pack]
    · refine ⟨fun _ => room, fun _ => ⟨by rw [store]; exact pack, .inl ⟨?_, ?_⟩⟩⟩
      · simpa [pack] using sent
      · rw [store]
        rfl

/-- A socket that is open and working, with room for `room` more bytes. -/
def sockOfRoom (room : Int32) : SockApi Unit where
  status _ := .opened
  error _ := false
  bufsz _ := room
  send _ buf _ := (buf.length, ())
  sync _ := (0, none, ())
  open' _ := (0, ())
  close _ := ()

/-- One report waits on the realtime list. -/
def oneReport : GbProt Unit where
  stat := gbStatZero
  vars := gbVarsInit
  store := ⟨fun l => if l = .realtm then [0] else [],
    fun _ => ⟨[0x01], 1, gbRpttypeRealtm, .realtm⟩, false⟩
  sock := ()

/-- With no room left on the socket it is on no list afterwards. -/
theorem report_lost_without_room :
    ¬ ReportKept (sockOfRoom 0) oneReport (gbDoReport (sockOfRoom 0) oneReport).2 := by
  rw [gbDoReport_keeps_iff]
  decide

end Gb32960
