import TBoxMpu.Gb32960.Loop

/-!
# The moves of the session

`gbLoopStep_move`: every step of the loop, and every step beside it, is a move of the session
(`GbMove`). `CtlInv` is what the moves keep, whatever the order of the steps.
-/

namespace Gb32960

open Sock Runs

/-! ### The packets -/

theorem seqOf_bytes (seq : UInt16) :
    (seq >>> 8).toUInt8.toUInt16 <<< 8 + seq.toUInt8.toUInt16 = seq := by
  apply UInt16.toNat_inj.mp
  have bound := seq.toNat_lt
  simp [UInt16.toNat_add, UInt16.toNat_shiftLeft, UInt16.toNat_shiftRight, Nat.shiftLeft_eq,
    Nat.shiftRight_eq_div_pow]
  omega

/-- The number behind 30 bytes of head, length and time. -/
theorem seqOf_append {front : List UInt8} (seq : UInt16) (rest : List UInt8)
    (length : front.length = 30) :
    seqOf (front ++ ([(seq >>> 8).toUInt8, seq.toUInt8] ++ rest)) = seq := by
  have high : (front ++ ([(seq >>> 8).toUInt8, seq.toUInt8] ++ rest)).getD 30 0 =
      (seq >>> 8).toUInt8 := by
    simp [List.getD_eq_getElem?_getD, length]
  have low : (front ++ ([(seq >>> 8).toUInt8, seq.toUInt8] ++ rest)).getD 31 0 =
      seq.toUInt8 := by
    simp [List.getD_eq_getElem?_getD, List.getElem?_append_right, length]
  unfold seqOf
  rw [high, low]
  exact seqOf_bytes seq

theorem carries_login (vars : GbVars) (time : RtcTime) :
    Carries vars.vin protLogin vars.regseq (gbPackLogin vars time) := by
  constructor
  · rfl
  · intro vin
    unfold gbPackLogin gbPackUnit
    simp only [List.append_assoc]
    rw [← List.append_assoc, ← List.append_assoc]
    apply seqOf_append
    simp [gbPackHead, gbPackTime, vin]

theorem carries_logout (vars : GbVars) (time : RtcTime) :
    Carries vars.vin protLogout (logoutSeq vars.regseq) (gbPackLogout vars time) := by
  constructor
  · rfl
  · intro vin
    unfold gbPackLogout gbPackUnit
    simp only [List.append_assoc]
    rw [← List.append_assoc, ← List.append_assoc]
    apply seqOf_append
    simp [gbPackHead, gbPackTime, vin]

/-! ### The functions of the loop -/

section Moves

variable {env : SockEnv} {s : GbLoop} {st : GbProt Wire}

theorem wireApi_send (env : SockEnv) (w : Wire) (buf : List UInt8) (sync : Option GbSync) :
    ((wireApi env).send w buf sync).2.sock.stat = w.sock.stat ∧
    ((wireApi env).send w buf sync).2.log =
      w.sent ((wireApi env).send w buf sync).1 buf sync := by
  refine ⟨?_, rfl⟩
  have result : sockSend env w.sock buf.length sync =
      some ((sockApi env).send w.sock buf sync) := by simp [sockApi]
  change ((sockApi env).send w.sock buf sync).2.stat = _
  rcases sockSend_cases result with ⟨-, same⟩ | ⟨-, -, wrl, same⟩ |
    ⟨-, -, l, n, ns, -, -, same⟩
  · rw [same]
  · rw [same]
  · rw [same]
    rfl

/-- The session is given up by `gb_reset`. -/
theorem gbReset_ctl (env : SockEnv) (st : GbProt Wire) :
    (gbReset (wireApi env) st).ctl = st.ctl.reset := by
  unfold gbReset GbProt.ctl GbCtl.reset wireApi sockClose
  dsimp only
  split
  · rfl
  · rfl

/-- A control message fails, is refused, or is sent. -/
theorem gbSendControl_cases (env : SockEnv) (msg : List UInt8) (sent : GbStat → GbStat)
    (st : GbProt Wire) :
    (((wireApi env).send st.sock msg none).1 < 0 ∧
      (gbSendControl (wireApi env) msg sent st).ctl = st.ctl.reset) ∨
    (gbSendControl (wireApi env) msg sent st).ctl = st.ctl ∨
    (gbSendControl (wireApi env) msg sent st).ctl =
      { ({ st with stat := sent st.stat } : GbProt Wire).ctl with
        log := .sent msg :: st.sock.log } := by
  obtain ⟨stat, log⟩ := wireApi_send env st.sock msg none
  unfold gbSendControl
  generalize (wireApi env).send st.sock msg none = r at stat log
  obtain ⟨res, w⟩ := r
  dsimp only at stat log ⊢
  unfold Wire.sent at log
  split
  next fails =>
    refine .inl ⟨fails, ?_⟩
    rw [if_neg (by omega)] at log
    rw [gbReset_ctl]
    unfold GbProt.ctl GbCtl.reset
    dsimp only
    rw [stat, log]
  next works =>
    split
    next refused =>
      rw [if_neg (by omega)] at log
      refine .inr (.inl ?_)
      unfold GbProt.ctl
      dsimp only
      rw [stat, log]
    next taken =>
      rw [if_pos ⟨by omega, rfl⟩] at log
      refine .inr (.inr ?_)
      unfold GbProt.ctl
      dsimp only
      rw [stat, log]

theorem gbSendControl_store (env : SockEnv) (msg : List UInt8) (sent : GbStat → GbStat)
    (st : GbProt Wire) : (gbSendControl (wireApi env) msg sent st).store = st.store := by
  unfold gbSendControl
  dsimp only
  split
  · rfl
  · split
    · rfl
    · rfl

theorem gbHandleMsg_move (env : SockEnv) (s : GbLoop) (msg : GbMsg)
    (fits : (GbLoopEvent.message env (some msg)).Fits) :
    GbMove s.prot.ctl (GivesUp s (.message env (some msg))) .message
      (GbLoopEvent.message env (some msg)).sign (gbHandleMsg (wireApi env) msg s.prot).ctl
      .checksock := by
  have reset := gbReset_ctl env s.prot
  cases msg with
  | network on =>
    unfold gbHandleMsg
    dsimp only
    split
    next change =>
      have given := GbMove.config (c := s.prot.ctl) s.prot.vars.vin (.inr rfl) change
      rw [← reset] at given
      exact given
    · exact .handled
  | emergence set => exact .handled
  | can on =>
    cases on with
    | true => exact .canOn
    | false =>
      change GbMove s.prot.ctl _ .message .busOff
        { s.prot.ctl with can := false, allowSleep := !false && !s.prot.stat.online } .checksock
      rw [Bool.not_false, Bool.true_and]
      exact .canOff
  | suspend on => exact .handled
  | config cfg =>
    cases cfg with
    | addr hasAddr =>
      have given : GbMove s.prot.ctl True .message .other _ .checksock :=
        .config s.prot.vars.vin (.inr rfl) trivial
      rw [← reset] at given
      exact given
    | vin vin =>
      have given : GbMove s.prot.ctl True .message .other _ .checksock :=
        .config vin (.inl fits) trivial
      rw [← reset] at given
      exact given
    | regintv regintv => exact .handled
    | timeout timeout => exact .handled

/-- On an open socket `sock_sync` fails only with `SIOCOUTQ`. -/
theorem sockSync_ret (env : SockEnv) {sock : SockT GbSync} (opened : sock.stat = .opened) :
    (sockSync env sock).2.2.stat = sock.stat ∧
    ((sockSync env sock).1 = 0 ∨ env.outq = false) := by
  unfold sockSync
  rw [if_neg (by simp [opened])]
  split
  next outq => exact ⟨rfl, .inr (by simpa using outq)⟩
  · split
    · exact ⟨rfl, .inl rfl⟩
    · dsimp only
      split
      · exact ⟨rfl, .inl rfl⟩
      · exact ⟨rfl, .inl rfl⟩

theorem gbDoChecksock_move (env : SockEnv) (time : RtcTime) (s : GbLoop)
    (place : s.place = .checksock) :
    GbMove s.prot.ctl (GivesUp s (.call env time)) .checksock .other
      (gbDoChecksock (wireApi env) env.now s.prot).2.ctl
      (if (gbDoChecksock (wireApi env) env.now s.prot).1 = 0 then .receive else .message) := by
  unfold gbDoChecksock
  split
  · exact .refused
  next gate =>
    have gate : s.prot.stat.network = true ∧ s.prot.vars.hasAddr = true ∧
        s.prot.vars.allowSleep = false := by simpa [and_assoc] using gate
    have api : (wireApi env).status s.prot.sock = s.prot.sock.sock.stat := rfl
    split
    next closed =>
      rw [api] at closed
      split
      · -- the thread that connects is started, or is not
        have stat : ((wireApi env).open' s.prot.sock).2.sock.stat ≠ .opened := by
          change (sockOpen env s.prot.sock.sock).2.stat ≠ .opened
          unfold sockOpen
          rw [if_neg (by simp [closed])]
          split
          · nofun
          · nofun
        exact .opening _ closed gate.2.2 stat
      · exact .refused
    next opened =>
      rw [api] at opened
      split
      next error =>
        -- the socket has failed
        have gives : GivesUp s (.call env time) := by
          unfold GivesUp
          rw [place]
          exact ⟨gate.1, gate.2.1, opened, .inl error⟩
        rw [gbReset_ctl]
        exact .reset nofun gives
      · obtain ⟨stat, ret⟩ := sockSync_ret env opened
        have sync : (wireApi env).sync s.prot.sock = ((sockSync env s.prot.sock.sock).1,
          (sockSync env s.prot.sock.sock).2.1,
          { s.prot.sock with sock := (sockSync env s.prot.sock.sock).2.2 }) := rfl
        rw [sync]
        generalize sockSync env s.prot.sock.sock = r at stat ret
        obtain ⟨res, callback, sock⟩ := r
        dsimp only at stat ret ⊢
        split
        next fails =>
          -- the queue of the kernel cannot be read
          have gives : GivesUp s (.call env time) := by
            unfold GivesUp
            rw [place]
            exact ⟨gate.1, gate.2.1, opened, .inr (ret.resolve_left fails)⟩
          rw [gbReset_ctl]
          unfold GbProt.ctl GbCtl.reset
          dsimp only
          rw [stat]
          exact .reset nofun gives
        · unfold GbProt.ctl
          dsimp only
          rw [stat]
          exact .ready opened gate.2.2
    · exact .refused

/-- A received packet accepts the login, accepts the logout, answers otherwise, or is passed
over. -/
theorem gbHandlePack_ctl (env : SockEnv) (st : GbProt Wire) (pack : List UInt8) :
    let r := gbHandlePack (wireApi env) pack st
    (AcceptsLogin st.stat pack ∧ r.1 = 0 ∧ r.2.ctl =
      { st.ctl with wait := 0, online := true, regseq := nextSeq st.vars.regseq }) ∨
    (¬ AcceptsLogin st.stat pack ∧
      ((r.1 = 0 ∧ r.2.ctl = st.ctl) ∨
        (r.1 = 0 ∧ st.stat.wait ≠ protLogout ∧ r.2.ctl = { st.ctl with wait := 0 }) ∨
        (r.1 = -1 ∧ st.stat.wait = protLogout ∧
          r.2.ctl = { st.ctl.reset with allowSleep := true }))) := by
  dsimp only
  unfold gbHandlePack AcceptsLogin
  split
  -- a wrong checksum changes nothing
  next wrong => exact .inr ⟨fun accepts => wrong accepts.1, .inl ⟨rfl, rfl⟩⟩
  next checksum =>
    have checksum := Decidable.not_not.mp checksum
    dsimp only
    split
    next type =>
      split
      next other => exact .inr ⟨fun accepts => other accepts.2.2.1, .inl ⟨rfl, rfl⟩⟩
      next awaited =>
        have awaited := Decidable.not_not.mp awaited
        split
        next rejected =>
          refine .inr ⟨fun accepts => rejected accepts.2.2.2, .inr (.inl ⟨rfl, ?_, rfl⟩)⟩
          rw [awaited]
          decide
        next ack =>
          refine .inl ⟨⟨checksum, type, awaited, Decidable.not_not.mp ack⟩, rfl, ?_⟩
          -- whether the reports are put back or cleared, the control part is the same
          cases st.stat.login with
          | true => rfl
          | false => rfl
    next notLogin =>
      refine .inr ⟨fun accepts => notLogin accepts.2.1, ?_⟩
      split
      · split
        · exact .inl ⟨rfl, rfl⟩
        next awaited =>
          split
          · exact .inl ⟨rfl, rfl⟩
          · refine .inr (.inr ⟨rfl, Decidable.not_not.mp awaited, ?_⟩)
            rw [← gbReset_ctl env]
            rfl
      · split
        · split
          · exact .inl ⟨rfl, rfl⟩
          next awaited =>
            split
            · exact .inl ⟨rfl, rfl⟩
            · refine .inr (.inl ⟨rfl, ?_, rfl⟩)
              rw [Decidable.not_not.mp awaited]
              decide
        · exact .inl ⟨rfl, rfl⟩

/-- What is noted of a packet that accepts the login. -/
theorem gbNoted_accepts (env : SockEnv) {st : GbProt Wire} {pack : List UInt8}
    (accepts : AcceptsLogin st.stat pack) :
    let r := gbNoted st pack (gbHandlePack (wireApi env) pack st)
    r.1 = 0 ∧ r.2.ctl = { st.ctl with
      wait := 0, online := true, regseq := nextSeq st.vars.regseq, log := .accepted :: st.ctl.log } := by
  dsimp only
  rcases gbHandlePack_ctl env st pack with ⟨-, ret, ctl⟩ | ⟨refuses, -⟩
  · unfold gbNoted
    rw [if_pos accepts]
    have noted : ({ (gbHandlePack (wireApi env) pack st).2 with
        sock := { (gbHandlePack (wireApi env) pack st).2.sock with
          log := .accepted :: (gbHandlePack (wireApi env) pack st).2.sock.log } } :
          GbProt Wire).ctl = { (gbHandlePack (wireApi env) pack st).2.ctl with
            log := .accepted :: (gbHandlePack (wireApi env) pack st).2.ctl.log } := rfl
    rw [noted, ctl]
    exact ⟨ret, rfl⟩
  · exact absurd accepts refuses

theorem gbHandlePack_move (env : SockEnv) (st : GbProt Wire) (pack : List UInt8) (gives : Prop) :
    let r := gbNoted st pack (gbHandlePack (wireApi env) pack st)
    GbMove st.ctl gives .receive .other r.2.ctl (if r.1 = 0 then .receive else .message) := by
  dsimp only
  rcases gbHandlePack_ctl env st pack with ⟨accepts, -, -⟩ | ⟨refuses, rest⟩
  · obtain ⟨ret, ctl⟩ := gbNoted_accepts env accepts
    rw [ret, if_pos rfl, ctl]
    exact .accepted accepts.2.2.1
  · unfold gbNoted
    rw [if_neg refuses]
    rcases rest with ⟨ret, ctl⟩ | ⟨ret, awaited, ctl⟩ | ⟨ret, awaited, ctl⟩
    · rw [ret, ctl, if_pos rfl]
      exact .still
    · rw [ret, ctl, if_pos rfl]
      exact .answered awaited
    · rw [ret, ctl, if_neg (by decide)]
      exact .ended (.inl rfl) awaited

theorem gbDoWait_move (env : SockEnv) (time : RtcTime) (s : GbLoop) (place : s.place = .wait) :
    GbMove s.prot.ctl (GivesUp s (.call env time)) .wait .other
      (gbDoWait (wireApi env) env.now time s.prot).2.ctl
      (if (gbDoWait (wireApi env) env.now time s.prot).1 = 0 then .login else .message) := by
  -- what giving up means at this place
  have gives : (GivesUp s (.call env time)) ↔ Overdue env s.prot ∧
      if s.prot.stat.wait = protLogout then
        s.prot.stat.retry < 3 ∧ SendFails env s (gbPackLogout s.prot.vars time)
      else s.prot.stat.wait = protLogin ∨ 3 ≤ s.prot.stat.retry := by
    unfold GivesUp
    rw [place]
  unfold gbDoWait
  split
  next noWait => exact .idle noWait
  next awaited =>
    split
    next overdue =>
      split
      next login =>
        have given : GivesUp s (.call env time) := by
          rw [gives, login]
          exact ⟨⟨awaited, overdue⟩, .inl rfl⟩
        rw [gbReset_ctl]
        exact .reset nofun given
      next notLogin =>
        dsimp only
        split
        next exhausted =>
          split
          next logout =>
            rw [gbReset_ctl]
            exact .ended (.inr rfl) logout
          next notLogout =>
            have given : GivesUp s (.call env time) := by
              rw [gives, if_neg notLogout]
              exact ⟨⟨awaited, overdue⟩, .inr (by omega)⟩
            rw [gbReset_ctl]
            exact .reset nofun given
        -- only a logout is repeated, the login is given up at once
        next more =>
          split
          next logout =>
            rcases gbSendControl_cases env (gbPackLogout s.prot.vars time)
              (fun stat => { stat with waittime := env.now })
              { s.prot with stat := { s.prot.stat with retry := s.prot.stat.retry + 1 } }
              with ⟨fails, ctl⟩ | ctl | ctl
            · have given : GivesUp s (.call env time) := by
                rw [gives, if_pos logout]
                exact ⟨⟨awaited, overdue⟩, by omega, fails⟩
              rw [ctl]
              exact .reset nofun given
            · rw [ctl]
              exact .waiting awaited
            · rw [ctl]
              exact .retry _ logout (carries_logout s.prot.vars time)
          · exact .waiting awaited
    · exact .waiting awaited

theorem gbRegday_ctl (time : RtcTime) (st : GbProt Wire) :
    ({ st with vars := gbRegday st.vars time } : GbProt Wire).ctl = st.ctl.regday time := by
  have date : UInt16.ofNat (time.mon.toNat * 100 + time.mday.toNat) = regdateOf time := rfl
  unfold gbRegday GbCtl.regday
  dsimp only
  rw [date]
  split
  next changed => exact (if_pos (c := st.ctl.regdate ≠ regdateOf time) changed).symm
  next same => exact (if_neg (c := st.ctl.regdate ≠ regdateOf time) same).symm

theorem gbRegday_vin (time : RtcTime) (vars : GbVars) : (gbRegday vars time).vin = vars.vin := by
  unfold gbRegday
  dsimp only
  split
  · rfl
  · rfl

theorem gbDoLogin_move (env : SockEnv) (time : RtcTime) (s : GbLoop) (place : s.place = .login)
    (dated : time.Dated) :
    GbMove s.prot.ctl (GivesUp s (.call env time)) .login .other
      (gbDoLogin (wireApi env) env.now time s.prot).2.ctl
      (if (gbDoLogin (wireApi env) env.now time s.prot).1 = 0 then .suspend else .message) := by
  unfold gbDoLogin
  split
  next online => exact .online online
  next offline =>
    have offline : s.prot.stat.online = false := by simpa using offline
    split
    next due =>
      dsimp only
      rcases gbSendControl_cases env (gbPackLogin (gbRegday s.prot.vars time) time)
        (fun stat => { stat with wait := protLogin, waittime := env.now })
        { s.prot with vars := gbRegday s.prot.vars time } with ⟨fails, ctl⟩ | ctl | ctl
      · have gives : GivesUp s (.call env time) := by
          unfold GivesUp
          rw [place]
          exact ⟨offline, by simpa using due, fails⟩
        rw [ctl, gbRegday_ctl]
        exact .failed time dated offline gives
      · rw [ctl, gbRegday_ctl]
        exact .unsent time dated offline
      · have packet := carries_login (gbRegday s.prot.vars time) time
        have seq : (gbRegday s.prot.vars time).regseq = (s.prot.ctl.regday time).regseq :=
          congrArg GbCtl.regseq (gbRegday_ctl time s.prot)
        rw [gbRegday_vin, seq] at packet
        have same : ∀ msg : List UInt8, ({ ({ ({ s.prot with vars := gbRegday s.prot.vars time } :
            GbProt Wire) with stat := { s.prot.stat with wait := protLogin, waittime := env.now } } :
            GbProt Wire).ctl with log := .sent msg :: s.prot.sock.log } : GbCtl) =
            { ({ s.prot with vars := gbRegday s.prot.vars time } : GbProt Wire).ctl with
              wait := protLogin, log := .sent msg :: s.prot.ctl.log } := fun _ => rfl
        rw [ctl, same, gbRegday_ctl]
        exact .login time _ dated offline packet
    · exact .notDue offline

theorem gbDoSuspend_move (env : SockEnv) (time : RtcTime) (s : GbLoop)
    (place : s.place = .suspend) :
    GbMove s.prot.ctl (GivesUp s (.call env time)) .suspend .other
      (gbDoSuspend (wireApi env) s.prot).2.ctl
      (if (gbDoSuspend (wireApi env) s.prot).1 = 0 then .report else .message) := by
  unfold gbDoSuspend
  split
  next suspended =>
    have gives : GivesUp s (.call env time) := by
      unfold GivesUp
      rw [place]
      simpa using suspended
    rw [gbReset_ctl]
    exact .reset nofun gives
  · exact .onward (.inl ⟨rfl, rfl⟩)

theorem gbDoLogout_move (env : SockEnv) (time : RtcTime) (s : GbLoop)
    (place : s.place = .logout) :
    GbMove s.prot.ctl (GivesUp s (.call env time)) .logout .other
      (gbDoLogout (wireApi env) env.now time s.prot).2.ctl .message := by
  unfold gbDoLogout
  split
  next due =>
    have due : s.prot.stat.can = false ∧ gbDataNosending s.prot.store = true := by
      simpa using due
    rcases gbSendControl_cases env (gbPackLogout s.prot.vars time)
      (fun stat => { stat with wait := protLogout, waittime := env.now }) s.prot
      with ⟨fails, ctl⟩ | ctl | ctl
    · have gives : GivesUp s (.call env time) := by
        unfold GivesUp
        rw [place]
        exact ⟨due.1, due.2, fails⟩
      rw [ctl]
      exact .reset nofun gives
    · rw [ctl]
      exact .onward (.inr (.inr (.inr (.inr ⟨rfl, rfl⟩))))
    · rw [ctl]
      exact .logout _ (carries_logout s.prot.vars time)
  · exact .onward (.inr (.inr (.inr (.inr ⟨rfl, rfl⟩))))

/-- What `gb_do_report` sends is no control message. -/
theorem gbSendReport_move (env : SockEnv) (s : GbLoop) (rpt : GbNode) (gives : Prop) :
    GbMove s.prot.ctl gives (.send rpt) .other (gbSendReport (wireApi env) rpt s.prot).2.ctl
      (if (gbSendReport (wireApi env) rpt s.prot).1 = 0 then .logout else .message) := by
  have onward : GbMove s.prot.ctl gives (.send rpt) .other s.prot.ctl .logout :=
    .onward (.inr (.inr (.inr (.inl ⟨⟨rpt, rfl⟩, rfl⟩))))
  unfold gbSendReport
  split
  · generalize gbPackReport s.prot.vars (s.prot.store.pack rpt) = buf
    obtain ⟨stat, log⟩ := wireApi_send env s.prot.sock buf (some .ackPack)
    generalize (wireApi env).send s.prot.sock buf (some .ackPack) = r at stat log
    obtain ⟨res, w⟩ := r
    have log : w.log = s.prot.sock.log := by
      rw [log]
      exact if_neg fun sent => nomatch sent.2
    have same : ∀ store, ({ s.prot with store := store, sock := w } : GbProt Wire).ctl =
        s.prot.ctl := by
      intro store
      unfold GbProt.ctl
      dsimp only at stat ⊢
      rw [stat, log]
    dsimp only
    split
    · rw [gbReset_ctl]
      have back := same (gbDataPutBack s.prot.store rpt)
      rw [back]
      exact .resetSend
    · split
      · have back := same (gbDataPutBack s.prot.store rpt)
        rw [back]
        exact onward
      · have sent := same (gbDataPutSend s.prot.store rpt)
        rw [sent]
        exact onward
  · exact onward

/-- Every step of the loop, and every step beside it, is a move of the session. -/
theorem gbLoopStep_move {s s' : GbLoop} {e : GbLoopEvent} (fits : e.Fits)
    (h : gbLoopStep s e = some s') :
    GbMove s.prot.ctl (GivesUp s e) s.place e.sign s'.prot.ctl s'.place := by
  cases e with
  | saveRealtm groups =>
    obtain ⟨store, -, rfl⟩ := Option.map_eq_some_iff.mp h
    exact .still
  | flushBegin =>
    obtain ⟨-, h⟩ := Option.ite_none_right_eq_some.mp h
    cases h
    exact .still
  | flushTake err =>
    obtain ⟨n, -, h⟩ := Option.bind_eq_some_iff.mp h
    obtain ⟨store, -, rfl⟩ := Option.map_eq_some_iff.mp h
    exact .still
  | flushEnd =>
    obtain ⟨n, -, rfl⟩ := Option.map_eq_some_iff.mp h
    exact .still
  | flushRealtm =>
    cases h
    exact .still
  | loadDbc =>
    cases h
    exact .still
  | connected ok =>
    obtain ⟨inprog, h⟩ := Option.ite_none_right_eq_some.mp h
    cases h
    cases ok with
    | true => exact .connected .opened inprog nofun
    | false => exact .connected .closed inprog nofun
  | acknowledged upto =>
    obtain ⟨-, h⟩ := Option.ite_none_right_eq_some.mp h
    cases h
    exact .still
  | message env msg =>
    obtain ⟨place, h⟩ := Option.ite_none_right_eq_some.mp h
    rw [place]
    cases msg with
    | none =>
      cases h
      exact .handled
    | some msg =>
      cases h
      exact gbHandleMsg_move env s msg fits
  | receive env pack =>
    obtain ⟨place, h⟩ := Option.ite_none_right_eq_some.mp h
    cases h
    rw [place]
    exact gbHandlePack_move env s.prot pack _
  | received env ok =>
    obtain ⟨place, h⟩ := Option.ite_none_right_eq_some.mp h
    cases h
    rw [place]
    cases ok with
    | true => exact .received
    | false =>
      rw [if_neg nofun]
      change GbMove _ _ _ _ (gbReset (wireApi env) s.prot).ctl _
      rw [gbReset_ctl]
      exact .reset nofun rfl
  | call env time =>
    -- one call of the loop body, by the place it is at
    change gbCall env time s = some s' at h
    unfold gbCall at h
    split at h
    next place =>
      cases h
      have move := gbDoChecksock_move env time s place
      rwa [← place] at move
    next place =>
      cases h
      have move := gbDoWait_move env time s place
      rwa [← place] at move
    next place =>
      cases h
      have move := gbDoLogin_move env time s place fits
      rwa [← place] at move
    next place =>
      cases h
      have move := gbDoSuspend_move env time s place
      rwa [← place] at move
    next place =>
      rw [place]
      split at h
      · cases h
        exact .onward (.inr (.inl ⟨rfl, rfl⟩))
      · cases h
        exact .onward (.inr (.inr (.inl ⟨rfl, _, rfl⟩)))
    next rpt place =>
      cases h
      rw [place]
      exact gbSendReport_move env s rpt _
    next place =>
      cases h
      have move := gbDoLogout_move env time s place
      rw [place]
      unfold GbLoop.advance
      dsimp only
      rw [ite_self]
      exact move
    · cases h
    · cases h

end Moves

/-! ### What the moves keep -/

/-- The places that an online session comes to. -/
def GbPlace.inSession : GbPlace → Prop
  | .suspend | .report | .send _ | .logout => True
  | _ => False

/-- The places behind `gb_do_checksock`. -/
def GbPlace.connected (p : GbPlace) : Prop := p ≠ .message ∧ p ≠ .checksock

/-- A login is awaited offline and a logout online, both on an open socket; the functions behind
`gb_do_checksock` run on an open socket, those behind `gb_do_login` in a session, and a login is
built when nothing is awaited. -/
structure CtlInv (c : GbCtl) (p : GbPlace) : Prop where
  waits : c.wait = 0 ∨ c.wait = protLogin ∧ c.online = false ∨
    c.wait = protLogout ∧ c.online = true
  session : p.inSession → c.online = true
  place : p.connected → c.sock = .opened
  live : c.online = true ∨ c.wait ≠ 0 → c.sock = .opened
  sleep : c.allowSleep = true → ¬ p.connected
  login : p = .login → c.wait = 0

section CtlInv

variable {c c' : GbCtl} {p p' : GbPlace} {gives : Prop} {sign : GbSign}

@[simp] theorem regday_fields (c : GbCtl) (time : RtcTime) :
    (c.regday time).online = c.online ∧ (c.regday time).wait = c.wait ∧
    (c.regday time).sock = c.sock ∧ (c.regday time).allowSleep = c.allowSleep ∧
    (c.regday time).vin = c.vin ∧ (c.regday time).log = c.log := by
  unfold GbCtl.regday
  split
  · exact ⟨rfl, rfl, rfl, rfl, rfl, rfl⟩
  · exact ⟨rfl, rfl, rfl, rfl, rfl, rfl⟩

theorem not_inSession (far : ¬ p.connected) : ¬ p.inSession := by
  intro inside
  apply far
  constructor
  · rintro rfl
    exact inside
  · rintro rfl
    exact inside

/-- A session that is over, with the thread back at the messages or at the socket. -/
theorem CtlInv.over (offline : c.online = false) (idle : c.wait = 0) (far : ¬ p.connected) :
    CtlInv c p where
  waits := .inl idle
  session inside := absurd inside (not_inSession far)
  place connected := absurd connected far
  live live := by
    rcases live with online | waits
    · rw [offline] at online
      cases online
    · exact absurd idle waits
  sleep _ := far
  login _ := idle

/-- The same session from a place that is not behind `gb_do_checksock`. -/
theorem CtlInv.back (inv : CtlInv c p) (far : ¬ p'.connected) : CtlInv c p' where
  waits := inv.waits
  session inside := absurd inside (not_inSession far)
  place connected := absurd connected far
  live := inv.live
  sleep _ := far
  login here := absurd (here ▸ ⟨nofun, nofun⟩) far

theorem not_connected_message : ¬ GbPlace.message.connected := fun connected => connected.1 rfl

theorem not_connected_checksock : ¬ GbPlace.checksock.connected :=
  fun connected => connected.2 rfl

theorem ctlInv_move (inv : CtlInv c p) (move : GbMove c gives p sign c' p') : CtlInv c' p' := by
  cases move with
  | still => exact inv
  | connected stat inprog ne =>
    -- while the connection is made no answer is awaited
    have off : ¬ (c.online = true ∨ c.wait ≠ 0) := fun live =>
      nomatch inprog.symm.trans (inv.live live)
    have far : ¬ p.connected := fun at' => nomatch inprog.symm.trans (inv.place at')
    exact ⟨inv.waits, inv.session, fun at' => absurd at' far, fun live => absurd live off,
      inv.sleep, inv.login⟩
  | handled => exact inv.back not_connected_checksock
  | config vin _ _ => exact .over rfl rfl not_connected_checksock
  | canOn =>
    have back := inv.back not_connected_checksock
    exact ⟨back.waits, back.session, back.place, back.live, nofun, nofun⟩
  | canOff =>
    have back := inv.back not_connected_checksock
    exact ⟨back.waits, back.session, back.place, back.live, fun _ => not_connected_checksock, nofun⟩
  | refused => exact inv.back not_connected_message
  | opening stat closed _ _ =>
    have off : ¬ (c.online = true ∨ c.wait ≠ 0) := fun live =>
      nomatch closed.symm.trans (inv.live live)
    have back := inv.back not_connected_message
    exact ⟨back.waits, back.session, fun at' => absurd at' not_connected_message,
      fun live => absurd live off, back.sleep, nofun⟩
  | ready opened noSleep =>
    refine ⟨inv.waits, nofun, fun _ => opened, inv.live, fun sleep => ?_, nofun⟩
    rw [noSleep] at sleep
    cases sleep
  | reset _ _ => exact .over rfl rfl not_connected_message
  | resetSend => exact .over rfl rfl not_connected_message
  | ended _ _ => exact .over rfl rfl not_connected_message
  | answered _ =>
    refine ⟨.inl rfl, nofun, inv.place, fun live => ?_, inv.sleep, nofun⟩
    rcases live with online | waits
    · exact inv.live (.inl online)
    · exact absurd rfl waits
  | accepted _ =>
    have opened := inv.place ⟨nofun, nofun⟩
    exact ⟨.inl rfl, nofun, inv.place, fun _ => opened, inv.sleep, nofun⟩
  | received => exact ⟨inv.waits, nofun, fun _ => inv.place ⟨nofun, nofun⟩, inv.live,
      fun sleep _ => inv.sleep sleep ⟨nofun, nofun⟩, nofun⟩
  | idle noWait => exact ⟨inv.waits, nofun, fun _ => inv.place ⟨nofun, nofun⟩, inv.live,
      fun sleep _ => inv.sleep sleep ⟨nofun, nofun⟩, fun _ => noWait⟩
  | waiting _ => exact inv.back not_connected_message
  | retry msg _ _ =>
    have back := inv.back not_connected_message
    exact ⟨back.waits, back.session, back.place, back.live, back.sleep, nofun⟩
  | online online => exact ⟨inv.waits, fun _ => online, fun _ => inv.place ⟨nofun, nofun⟩,
      inv.live, fun sleep _ => inv.sleep sleep ⟨nofun, nofun⟩, nofun⟩
  | notDue _ => exact inv.back not_connected_message
  | unsent time _ _ =>
    have back := inv.back not_connected_message
    obtain ⟨online, wait, sock, sleep, -⟩ := regday_fields c time
    refine ⟨?_, nofun, fun at' => absurd at' not_connected_message, ?_,
      fun _ => not_connected_message, nofun⟩
    · rw [online, wait]
      exact back.waits
    · rw [online, wait, sock]
      exact back.live
  | failed time _ _ _ => exact .over rfl rfl not_connected_message
  | login time msg _ offline _ =>
    have opened := inv.place ⟨nofun, nofun⟩
    obtain ⟨online, -, sock, -⟩ := regday_fields c time
    refine ⟨.inr (.inl ⟨rfl, online.trans offline⟩), nofun,
      fun at' => absurd at' not_connected_message, fun _ => sock.trans opened,
      fun _ => not_connected_message, nofun⟩
  -- the places of a session follow each other, and none is a login's
  | onward way =>
    have session : p'.inSession → p.inSession := by
      rcases way with ⟨rfl, rfl⟩ | ⟨rfl, rfl⟩ | ⟨rfl, rpt, rfl⟩ | ⟨⟨rpt, rfl⟩, rfl⟩ | ⟨rfl, rfl⟩
      all_goals exact fun _ => trivial
    have connected : p'.connected → p.connected := by
      rcases way with ⟨rfl, rfl⟩ | ⟨rfl, rfl⟩ | ⟨rfl, rpt, rfl⟩ | ⟨⟨rpt, rfl⟩, rfl⟩ | ⟨rfl, rfl⟩
      all_goals exact fun _ => ⟨nofun, nofun⟩
    have notLogin : p' ≠ .login := by
      rcases way with ⟨rfl, rfl⟩ | ⟨rfl, rfl⟩ | ⟨rfl, rpt, rfl⟩ | ⟨⟨rpt, rfl⟩, rfl⟩ | ⟨rfl, rfl⟩
      all_goals nofun
    exact ⟨inv.waits, fun inside => inv.session (session inside),
      fun at' => inv.place (connected at'), inv.live,
      fun sleep at' => inv.sleep sleep (connected at'), fun here => absurd here notLogin⟩
  | logout msg _ =>
    have online := inv.session trivial
    exact ⟨.inr (.inr ⟨rfl, online⟩), nofun, fun at' => absurd at' not_connected_message,
      fun _ => inv.live (.inl online), fun _ => not_connected_message, nofun⟩

end CtlInv

/-! ### Runs -/

/-- The thread as `gb_init` and the start of `gb_main` leave it; the login number is that of the
configuration, which has no date when it is the default. -/
structure GbLoopStart (s : GbLoop) : Prop where
  stat : s.prot.stat = gbStatZero
  sleep : s.prot.vars.allowSleep = true
  vin : s.prot.vars.vin.length = 17
  seq : s.prot.vars.regdate = 0 ∨ 1 ≤ s.prot.vars.regseq ∧ s.prot.vars.regseq ≤ 65531
  sock : s.prot.sock.sock.stat = .closed
  log : s.prot.sock.log = []
  lists : ∀ l, s.prot.store.lists l = if l = .free then List.finRange gbMaxReport else []
  place : s.place = .message
  flushed : s.flushed = none

/-- The states of a run all of whose steps meet the condition `ok`. -/
def GbLoopReach (ok : GbLoop → GbLoopEvent → Prop) : GbLoop → Prop :=
  Reach GbLoopStart (Guarded (fun s e => e.Fits ∧ ok s e) fun s e s' => gbLoopStep s e = some s')

theorem ctlInv_start {s : GbLoop} (start : GbLoopStart s) : CtlInv s.prot.ctl s.place := by
  have place := start.place
  apply CtlInv.over
  · change s.prot.stat.online = false
    rw [start.stat]
    rfl
  · change s.prot.stat.wait = 0
    rw [start.stat]
    rfl
  · rw [place]
    exact not_connected_message

theorem ctlInv_reach {ok : GbLoop → GbLoopEvent → Prop} {s : GbLoop} (reach : GbLoopReach ok s) :
    CtlInv s.prot.ctl s.place := by
  have starts : ∀ s, GbLoopStart s → CtlInv s.prot.ctl s.place := by
    intro s start
    exact ctlInv_start start
  have kept : ∀ s e s', CtlInv s.prot.ctl s.place →
      Guarded (fun s e => e.Fits ∧ ok s e) (fun s e s' => gbLoopStep s e = some s') s e s' →
      CtlInv s'.prot.ctl s'.place := by
    rintro s e s' inv ⟨⟨fits, -⟩, step⟩
    exact ctlInv_move inv (gbLoopStep_move fits step)
  exact Reach.invariant starts kept reach

/-! ### Runs to compute with -/

instance (time : RtcTime) : Decidable time.Dated := by
  unfold RtcTime.Dated
  infer_instance

instance (e : GbLoopEvent) : Decidable e.Fits :=
  match e with
  | .call _ time => inferInstanceAs (Decidable time.Dated)
  | .message _ (some (.config (.vin vin))) => inferInstanceAs (Decidable (vin.length = 17))
  | .message _ none | .message _ (some (.network _)) | .message _ (some (.emergence _))
  | .message _ (some (.can _)) | .message _ (some (.suspend _))
  | .message _ (some (.config (.addr _))) | .message _ (some (.config (.regintv _)))
  | .message _ (some (.config (.timeout _)))
  | .saveRealtm _ | .flushBegin | .flushTake _ | .flushEnd | .flushRealtm | .loadDbc
  | .connected _ | .acknowledged _ | .receive _ _ | .received _ _ => .isTrue trivial

/-- Configured, before any message. -/
def parkedThread : GbLoop where
  prot := {
    stat := gbStatZero
    vars := { gbVarsInit with hasAddr := true }
    store := gbCleared ⟨fun _ => [], fun _ => ⟨[], 0, 0, .free⟩, false⟩
    sock := ⟨⟨.closed, 0, 0, fun _ => ⟨0, none, .free⟩, fun _ => [], ⟨0, 0⟩⟩, []⟩ }
  place := .message
  flushed := none

theorem parkedThread_start : GbLoopStart parkedThread where
  stat := rfl
  sleep := rfl
  vin := rfl
  seq := .inl rfl
  sock := rfl
  log := rfl
  lists := parkedSession_idle.lists
  place := rfl
  flushed := rfl

/-- The functions of the next places, one after the other. -/
def calls (n : Nat) : List GbLoopEvent := List.replicate n (.call fastEnv newYear)

/-- Up to the login packet: the network, the bus and a report are there. -/
def toLogin : List GbLoopEvent :=
  [.message fastEnv (some (.network true)), .call fastEnv newYear, .saveRealtm [[0x01]],
    .message fastEnv (some (.can true)), .call fastEnv newYear, .connected true,
    .message fastEnv none, .call fastEnv newYear, .received fastEnv true] ++ calls 2

/-- The login is accepted, and there is nothing to send. -/
def toSession : List GbLoopEvent :=
  toLogin ++ [.message fastEnv none, .call fastEnv newYear, .receive fastEnv loginAck,
    .received fastEnv true] ++ calls 5

/-- The bus goes off, and the session is ended. -/
def toLogout : List GbLoopEvent :=
  toSession ++ [.message fastEnv (some (.can false)), .call fastEnv newYear,
    .received fastEnv true] ++ calls 5

/-- A run whose steps are checked for the condition, seen through `f`. -/
theorem loopRun (ok : GbLoop → GbLoopEvent → Prop) [∀ s e, Decidable (ok s e)] {A : Type}
    {f : GbLoop → A} {a : A} (events : List GbLoopEvent)
    (run : (events.foldlM (fun s e => if e.Fits ∧ ok s e then gbLoopStep s e else none)
      parkedThread).map f = some a) : ∃ s, GbLoopReach ok s ∧ f s = a := by
  obtain ⟨s, run, seen⟩ := Option.map_eq_some_iff.mp run
  have start : GbLoopReach ok parkedThread := .start parkedThread_start
  exact ⟨s, start.run_checked events run, seen⟩

end Gb32960
