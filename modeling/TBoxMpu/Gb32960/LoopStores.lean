import TBoxMpu.Gb32960.LoopMoves

/-!
# The report lists in the main loop

What each function of the loop does to the lists: only the acknowledgements of
`gb_do_checksock`, an accepted login and `gb_do_report` touch them.
-/

namespace Gb32960

open Sock

variable {env : SockEnv} {st : GbProt Wire}

theorem gbHandleMsg_store (env : SockEnv) (msg : GbMsg) (st : GbProt Wire) :
    (gbHandleMsg (wireApi env) msg st).store.lists = st.store.lists ∧
    (gbHandleMsg (wireApi env) msg st).store.pack = st.store.pack := by
  unfold gbHandleMsg
  cases msg with
  | network on =>
    dsimp only
    split
    · exact ⟨rfl, rfl⟩
    · exact ⟨rfl, rfl⟩
  | emergence set => exact ⟨rfl, rfl⟩
  | can on => exact ⟨rfl, rfl⟩
  | suspend on => exact ⟨rfl, rfl⟩
  | config cfg =>
    cases cfg with
    | addr hasAddr => exact ⟨rfl, rfl⟩
    | vin vin => exact ⟨rfl, rfl⟩
    | regintv regintv => exact ⟨rfl, rfl⟩
    | timeout timeout => exact ⟨rfl, rfl⟩

/-- A failed `sock_sync` runs no callback. -/
theorem sockSync_fails (env : SockEnv) {sock : SockT GbSync} (fails : (sockSync env sock).1 ≠ 0) :
    (sockSync env sock).2.1 = none := by
  unfold sockSync at fails ⊢
  split
  · rfl
  next opened =>
    rw [if_neg opened] at fails
    split
    · rfl
    next outq =>
      rw [if_neg outq] at fails
      split
      · rfl
      next node rest content =>
        rw [content] at fails
        dsimp only at fails ⊢
        split
        next done =>
          rw [if_pos done] at fails
          exact absurd rfl fails
        · rfl

/-- Only with the socket open, before and after, an acknowledgement frees a pack. -/
theorem gbDoChecksock_store (env : SockEnv) (st : GbProt Wire) :
    let st' := (gbDoChecksock (wireApi env) env.now st).2
    st'.store = st.store ∨
      st'.store = gbDataAckPack st.store ∧ st'.sock.sock.stat = .opened := by
  dsimp only
  unfold gbDoChecksock
  split
  · exact .inl rfl
  · split
    · split
      · exact .inl rfl
      · exact .inl rfl
    next opened =>
      have opened : st.sock.sock.stat = .opened := opened
      split
      · exact .inl rfl
      · have sync : (wireApi env).sync st.sock = ((sockSync env st.sock.sock).1,
          (sockSync env st.sock.sock).2.1,
          { st.sock with sock := (sockSync env st.sock.sock).2.2 }) := rfl
        rw [sync]
        obtain ⟨stat, -⟩ := sockSync_ret env opened
        have fails : (sockSync env st.sock.sock).1 ≠ 0 → (sockSync env st.sock.sock).2.1 = none :=
          sockSync_fails env
        generalize sockSync env st.sock.sock = r at stat fails
        obtain ⟨res, callback, sock⟩ := r
        dsimp only at stat fails ⊢
        split
        next failed =>
          rw [fails failed]
          exact .inl rfl
        · cases callback with
          | none => exact .inl rfl
          | some sync =>
            cases sync
            exact .inr ⟨rfl, stat.trans opened⟩
    · exact .inl rfl

theorem gbDoWait_store (env : SockEnv) (time : RtcTime) (st : GbProt Wire) :
    (gbDoWait (wireApi env) env.now time st).2.store = st.store := by
  unfold gbDoWait
  split
  · rfl
  · split
    · split
      · rfl
      · dsimp only
        split
        · split
          · rfl
          · rfl
        · split
          · exact gbSendControl_store env _ _ _
          · rfl
    · rfl

theorem gbDoLogin_store (env : SockEnv) (time : RtcTime) (st : GbProt Wire) :
    (gbDoLogin (wireApi env) env.now time st).2.store = st.store := by
  unfold gbDoLogin
  split
  · rfl
  · split
    · exact gbSendControl_store env _ _ _
    · rfl

theorem gbDoSuspend_store (env : SockEnv) (st : GbProt Wire) :
    (gbDoSuspend (wireApi env) st).2.store = st.store := by
  unfold gbDoSuspend
  split
  · rfl
  · rfl

theorem gbDoLogout_store (env : SockEnv) (time : RtcTime) (st : GbProt Wire) :
    (gbDoLogout (wireApi env) env.now time st).2.store = st.store := by
  unfold gbDoLogout
  split
  · exact gbSendControl_store env _ _ _
  · rfl

/-- Only an accepted login touches the lists. -/
theorem gbHandlePack_store (env : SockEnv) (st : GbProt Wire) (pack : List UInt8) :
    let st' := (gbHandlePack (wireApi env) pack st).2
    st'.store = st.store ∨ AcceptsLogin st.stat pack ∧
      (st'.store = gbDataFlushRealtm (gbDataFlushSending st.store) ∨
        st.stat.login = false ∧ st'.store = gbDataClearReport st.store) := by
  dsimp only
  unfold gbHandlePack AcceptsLogin
  split
  · exact .inl rfl
  next checksum =>
    have checksum := Decidable.not_not.mp checksum
    dsimp only
    split
    next type =>
      split
      · exact .inl rfl
      next awaited =>
        split
        · exact .inl rfl
        next ack =>
          refine .inr ⟨⟨checksum, type, Decidable.not_not.mp awaited, Decidable.not_not.mp ack⟩, ?_⟩
          cases st.stat.login with
          | true => exact .inl rfl
          | false => exact .inr ⟨rfl, rfl⟩
    · split
      · split
        · exact .inl rfl
        · split
          · exact .inl rfl
          · exact .inl rfl
      · split
        · split
          · exact .inl rfl
          · split
            · exact .inl rfl
            · exact .inl rfl
        · exact .inl rfl

theorem gbNoted_store (st : GbProt Wire) (pack : List UInt8) (r : Int × GbProt Wire) :
    (gbNoted st pack r).2.store = r.2.store ∧ (gbNoted st pack r).1 = r.1 := by
  unfold gbNoted
  split
  · exact ⟨rfl, rfl⟩
  · exact ⟨rfl, rfl⟩

/-- The pack comes back to its home list when `sock_send` fails. -/
theorem gbSendReport_store (env : SockEnv) (rpt : GbNode) (st : GbProt Wire) :
    let r := gbSendReport (wireApi env) rpt st
    r.2.store = gbDataPutBack st.store rpt ∨
      r.1 = 0 ∧ (r.2.store = st.store ∨ r.2.store = gbDataPutSend st.store rpt) := by
  dsimp only
  unfold gbSendReport
  split
  · dsimp only
    split
    · exact .inl rfl
    · split
      · exact .inl rfl
      · exact .inr ⟨rfl, .inr rfl⟩
  · exact .inr ⟨rfl, .inl rfl⟩

end Gb32960
