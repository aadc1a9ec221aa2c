import TBoxMpu.Lib.Bits
import TBoxMpu.Uds.Server

/-!
# What a request does

The table of the server in words, and one statement for all services: what a request may change,
and how it is answered.
-/

namespace Uds

variable {σ : Type}

/-! ### The table in words -/

def UdsService.sid : UdsService → Option UInt8
  | .notSupported => none
  | .sessionControl => some 0x10
  | .ecuReset => some 0x11
  | .clearDtc => some 0x14
  | .readDtc => some 0x19
  | .readById => some 0x22
  | .securityAccess => some 0x27
  | .commControl => some 0x28
  | .writeById => some 0x2E
  | .ioControl => some 0x2F
  | .routineControl => some 0x31
  | .requestDownload => some 0x34
  | .transferData => some 0x36
  | .transferExit => some 0x37
  | .testPresent => some 0x3E
  | .controlDtcSetting => some 0x85

/-- Where a service is served. -/
def UdsService.allowed (service : UdsService) (physical : Bool) (session : DiagSession)
    (level : SecLevel) : Bool :=
  match service with
  | .sessionControl | .ecuReset | .testPresent => true
  | .clearDtc | .readDtc | .readById => session ≠ .program
  | .securityAccess | .routineControl => physical && session ≠ .default
  | .commControl => session ≠ .default
  | .writeById => physical && session = .extended && level ≠ .level0
  | .controlDtcSetting => session = .extended
  | .requestDownload | .transferData | .transferExit =>
    physical && session = .program && level = .level2
  | .notSupported | .ioControl => false

theorem udsServiceOf_ok {canId : UInt32} {session : DiagSession} {level : SecLevel} {sid : UInt8}
    {service : UdsService} (h : udsServiceOf canId session level sid = .ok service) :
    service.sid = some sid ∧ service.allowed (canId = udsCanIdPhy) session level = true := by
  have rows (canId : UInt32) (either : canId ∈ [udsCanIdPhy, 0]) : ∀ sid : UInt8,
      ∀ service ∈ (udsServiceOf canId session level sid).toOption,
        service.sid = some sid ∧ service.allowed (canId = udsCanIdPhy) session level = true := by
    refine Bits.forall_byte ?_
    rcases List.mem_pair.mp either with rfl | rfl <;>
      cases session <;> cases level <;> decide +kernel
  by_cases physical : canId = udsCanIdPhy
  · rw [physical] at h ⊢
    exact rows _ (List.mem_cons_self ..) sid service (by rw [h]; rfl)
  · -- all other addresses are one to the table
    have mask : addressMask canId = addressMask 0 := by
      rw [addressMask, if_neg physical]
      decide
    have same : udsServiceOf 0 session level sid = .ok service := by
      rw [← h]
      simp only [udsServiceOf, mask]
    rw [decide_eq_false physical]
    exact rows 0 (by decide) sid service (by rw [same]; rfl)

/-! ### What a request does -/

/-- What has happened to the security access. -/
inductive UdsTrace
  | exchange (x : Exchange)
  | ended

/-- What a request is for the security access. -/
def udsNote (c : UdsServices σ) (env : UdsEnv) (r : UdsRequest) (s : UdsServer σ) :
    Option UdsTrace :=
  match udsServiceOf r.canId s.session s.sec.level r.sid with
  | .ok .securityAccess =>
    some (.exchange ⟨r.pdu, (udsSrvSecrityAcess c.rand env.now r.pdu s.sec).2⟩)
  | .ok .sessionControl =>
    if r.pdu.length = 2 ∧ subFunction r.pdu = 0x01 then some .ended else none
  | _ => none

/-- What a request may make of the variables, apart from its responses. -/
inductive UdsEffect (c : UdsServices σ) (env : UdsEnv) (r : UdsRequest) (s : UdsServer σ) :
    UdsServer σ → Option UdsTrace → Prop
  | none : UdsEffect c env r s s none
  | sessionDefault : UdsEffect c env r s s.sessionDefault (some .ended)
  | session (now : DiagSession) : now ≠ .default →
      UdsEffect c env r s { s with session := now } none
  | security : s.session ≠ .default →
      UdsEffect c env r s { s with sec := (udsSrvSecrityAcess c.rand env.now r.pdu s.sec).1 }
        (some (.exchange ⟨r.pdu, (udsSrvSecrityAcess c.rand env.now r.pdu s.sec).2⟩))
  | comm (tx rx : Bool) : s.session ≠ .default →
      UdsEffect c env r s { s with txFlag := tx, rxFlag := rx } none
  | dtcSetting (on : Bool) : s.session = .extended →
      UdsEffect c env r s { s with dtcSwitch := on } none
  | faults (dtc : DtcServer) : UdsEffect c env r s { s with dtc } none
  | memory : UdsEffect c env r s { s with erasememoryflag := false } none
  | write (did : σ) : r.canId = udsCanIdPhy → r.sid = 0x2E → s.session = .extended →
      s.sec.level ≠ .level0 → UdsEffect c env r s { s with did } none

def UdsOut.pdu : UdsOut → Option (List UInt8)
  | .response pdu => some pdu
  | .restart _ | .requestTukey => none

/-- The services that may be asked for no positive response. -/
def UdsRequest.mayBeSilent (r : UdsRequest) : Bool :=
  r.sid ∈ [0x10, 0x11, 0x27, 0x28, 0x3E, 0x85] && r.pdu.getD 1 0 &&& 0x80 ≠ 0

/-- A final answer, or none where that is asked for. -/
inductive FinalAnswer (r : UdsRequest) : List (List UInt8) → Prop
  | positive (data : List UInt8) : FinalAnswer r [(r.sid + posRespondSidMask) :: data]
  | negative (nrc : UInt8) : nrc ≠ nrcResponsePending →
      FinalAnswer r [[sidNegativeResponse, r.sid, nrc]]
  | silent : r.mayBeSilent = true → FinalAnswer r []

/-- Any number of times the answer is put off, and then it comes. -/
def Answered (r : UdsRequest) (out : List UdsOut) : Prop :=
  ∃ n final, FinalAnswer r final ∧ out.filterMap UdsOut.pdu =
    List.replicate n [sidNegativeResponse, r.sid, nrcResponsePending] ++ final

def UdsDone (c : UdsServices σ) (env : UdsEnv) (r : UdsRequest) (s s' : UdsServer σ)
    (note : Option UdsTrace) : Prop :=
  ∃ core out, UdsEffect c env r s core note ∧ Answered r out ∧
    s' = { core with suppress := false, out := s.out ++ out }

/-! ### Responses -/

variable {c : UdsServices σ} {env : UdsEnv} {r : UdsRequest} {s core : UdsServer σ}
  {note : Option UdsTrace}

theorem udsNegativeResponse_eq (sid nrc : UInt8) (s : UdsServer σ) :
    udsNegativeResponse sid nrc s =
      { s with
        suppress := false
        out := s.out ++ [.response [sidNegativeResponse, sid, nrc]] } := by
  have other : diagId ≠ udsCanIdPhy := by decide
  simp [udsNegativeResponse, udsPositiveResponse, other]

theorem udsPositiveResponse_eq {data : List UInt8} (fits : data.length ≤ 4096)
    (positive : data.getD 0 0 ≠ sidNegativeResponse) (s : UdsServer σ) :
    udsPositiveResponse data s =
      { s with
        suppress := false
        out := s.out ++ if s.suppress then [] else [.response data] } := by
  unfold udsPositiveResponse
  cases asked : s.suppress <;> simp_all

theorem udsPositiveResponse_sid {sid : UInt8} {data : List UInt8} (fits : data.length ≤ 4095)
    (positive : sid + posRespondSidMask ≠ sidNegativeResponse) (clear : s.suppress = false) :
    udsPositiveResponse ((sid + posRespondSidMask) :: data) s =
      { s with
        suppress := false
        out := s.out ++ [.response ((sid + posRespondSidMask) :: data)] } := by
  have room : ((sid + posRespondSidMask) :: data).length ≤ 4096 := by
    rw [List.length_cons]
    omega
  rw [udsPositiveResponse_eq room (by simpa using positive), clear]
  rfl

theorem UdsEffect.frame (effect : UdsEffect c env r s core note) :
    core.out = s.out ∧ core.suppress = s.suppress := by
  cases effect <;> exact ⟨rfl, rfl⟩

theorem UdsDone.refused (effect : UdsEffect c env r s core note) {nrc : UInt8}
    (final : nrc ≠ nrcResponsePending) :
    UdsDone c env r s (udsNegativeResponse r.sid nrc core) note := by
  refine ⟨core, [.response [sidNegativeResponse, r.sid, nrc]], effect,
    ⟨0, _, .negative nrc final, rfl⟩, ?_⟩
  rw [udsNegativeResponse_eq, effect.frame.1]

theorem UdsDone.positive (effect : UdsEffect c env r s core note) {data : List UInt8}
    (clear : s.suppress = false) (fits : data.length ≤ 4095)
    (sid : r.sid + posRespondSidMask ≠ sidNegativeResponse) :
    UdsDone c env r s (udsPositiveResponse ((r.sid + posRespondSidMask) :: data) core) note := by
  refine ⟨core, [.response ((r.sid + posRespondSidMask) :: data)], effect,
    ⟨0, _, .positive data, rfl⟩, ?_⟩
  rw [udsPositiveResponse_sid fits sid (effect.frame.2.trans clear), effect.frame.1]

theorem UdsDone.answered (effect : UdsEffect c env r s core note) {data : List UInt8}
    (clear : s.suppress = false) (fits : data.length ≤ 4095)
    (silent : r.sid ∈ [0x10, 0x11, 0x27, 0x28, 0x3E, 0x85]) :
    UdsDone c env r s (udsAnswer r.pdu ((r.sid + posRespondSidMask) :: data) core) note := by
  have sid : r.sid + posRespondSidMask ≠ sidNegativeResponse := by
    revert silent
    generalize r.sid = sid
    simp only [List.mem_cons, List.not_mem_nil, or_false]
    rintro (rfl | rfl | rfl | rfl | rfl | rfl) <;> decide
  unfold udsAnswer
  split
  next asked =>
    refine ⟨core, [], effect, ⟨0, _, .silent ?_, rfl⟩, ?_⟩
    · rw [UdsRequest.mayBeSilent, decide_eq_true silent, decide_eq_true asked]
      rfl
    · have room : ((r.sid + posRespondSidMask) :: data).length ≤ 4096 := by
        rw [List.length_cons]
        omega
      rw [udsPositiveResponse_eq room (by simpa using sid), ← effect.frame.1]
      rfl
  · exact .positive effect clear fits sid

/-! ### The services -/

theorem sessionControl_done (clear : s.suppress = false) (sid : r.sid = 0x10) :
    UdsDone c env r s (udsSrvDiagSessionCtrl r.pdu s)
      (if r.pdu.length = 2 ∧ subFunction r.pdu = 0x01 then some .ended else none) := by
  have silent : r.sid ∈ [0x10, 0x11, 0x27, 0x28, 0x3E, 0x85] := by simp [sid]
  unfold udsSrvDiagSessionCtrl
  by_cases two : r.pdu.length = 2
  · by_cases first : subFunction r.pdu = 0x01
    · simp only [two, first, ne_eq, not_true_eq_false, and_self, if_false, if_true]
      exact .answered .sessionDefault clear (by simp) silent
    · simp only [two, first, ne_eq, not_true_eq_false, and_false, if_false]
      split
      · split
        · exact .answered (.session .program nofun) clear (by simp) silent
        · exact .refused .none (by decide)
      · split
        · split
          · exact .answered (.session .extended nofun) clear (by simp) silent
          · exact .refused .none (by decide)
        · exact .refused .none (by decide)
  · simp only [two, ne_eq, not_false_eq_true, false_and, if_true, if_false]
    exact .refused .none (by decide)

theorem ecuReset_done (clear : s.suppress = false) (sid : r.sid = 0x11) :
    UdsDone c env r s (udsSrvEcuReset r.pdu s) none := by
  have reset (app : Bool) : UdsDone c env r s
      { udsAnswer r.pdu (udsEcho r.pdu) s with
        out := (udsAnswer r.pdu (udsEcho r.pdu) s).out ++ [UdsOut.restart app] } none := by
    have done : UdsDone c env r s (udsAnswer r.pdu (udsEcho r.pdu) s) none :=
      .answered .none clear (by simp) (by simp [sid])
    obtain ⟨core, out, effect, ⟨n, final, answer, responses⟩, same⟩ := done
    refine ⟨core, out ++ [.restart app], effect, ⟨n, final, answer, ?_⟩, ?_⟩
    · rw [List.filterMap_append, responses]
      exact List.append_nil _
    · rw [← List.append_assoc]
      exact congrArg (fun t : UdsServer σ => { t with out := t.out ++ [UdsOut.restart app] }) same
  unfold udsSrvEcuReset
  dsimp only
  split
  · exact .refused .none (by decide)
  · split
    · exact reset false
    · split
      · exact reset true
      · exact .refused .none (by decide)

theorem clearDtc_done (sid : r.sid = 0x14) :
    UdsDone c env r s (udsSrvClearDtc r.pdu s) none := by
  unfold udsSrvClearDtc
  dsimp only
  split
  · exact .refused .none (by decide)
  · split
    · refine ⟨_, [.response _, .response _], .faults { s.dtc with diag := udsDiagDtcClear },
        ⟨1, _, .positive [], rfl⟩, ?_⟩
      have positive : r.sid + posRespondSidMask ≠ sidNegativeResponse := by
        rw [sid]
        decide
      rw [udsNegativeResponse_eq]
      refine (udsPositiveResponse_sid (by simp) positive rfl).trans ?_
      simp [UdsRequest.sid]
    · exact .refused .none (by decide)

theorem testerPresent_done (clear : s.suppress = false) (sid : r.sid = 0x3E) :
    UdsDone c env r s (udsSrvTesterPresent r.pdu s) none := by
  unfold udsSrvTesterPresent
  split
  · exact .refused .none (by decide)
  · split
    · exact .answered .none clear (by simp) (by simp [sid])
    · exact .refused .none (by decide)

theorem controlDtcSetting_done (clear : s.suppress = false) (sid : r.sid = 0x85)
    (extended : s.session = .extended) :
    UdsDone c env r s (udsSrvControlDtcSetting r.pdu s) none := by
  unfold udsSrvControlDtcSetting
  split
  · exact .refused .none (by decide)
  · split
    · exact .answered (.dtcSetting true extended) clear (by simp) (by simp [sid])
    · split
      · exact .answered (.dtcSetting false extended) clear (by simp) (by simp [sid])
      · exact .refused .none (by decide)

theorem communicationControl_done (clear : s.suppress = false) (sid : r.sid = 0x28)
    (session : s.session ≠ .default) :
    UdsDone c env r s (udsSrvCommunicationControl r.pdu s) none := by
  unfold udsSrvCommunicationControl
  dsimp only
  split
  · exact .refused .none (by decide)
  · cases commFlags (subFunction r.pdu) with
    | none => exact .refused .none (by decide)
    | some flags =>
      dsimp only
      split
      · exact .answered (.comm flags.1 flags.2 session) clear (by simp) (by simp [sid])
      · exact .refused .none (by decide)

/-- A positive answer to the service, or a refusal that is final. -/
def SecAnswer.Proper (sid : UInt8) : SecAnswer → Prop
  | .negative nrc => nrc ≠ nrcResponsePending
  | .positive data _ => ∃ more, data = (sid + posRespondSidMask) :: more ∧ more.length ≤ 4095

theorem positiveAnswer_proper (pdu : List UInt8) {more : List UInt8} (few : more.length ≤ 4094) :
    (positiveAnswer pdu more).Proper (pdu.getD 0 0) :=
  ⟨_, rfl, Nat.succ_le_succ few⟩

theorem requestSeed_proper (rand : UInt32 → UInt32) (now : UInt32) (pdu : List UInt8)
    (sec : SecAccess) : (requestSeed rand now pdu sec).2.Proper (pdu.getD 0 0) := by
  unfold requestSeed
  split
  · exact (by decide : nrcIncorrectMessageLength ≠ nrcResponsePending)
  · exact positiveAnswer_proper pdu (by simp [wordBytes])

theorem seedKey_proper (mode byte : UInt8) (level : SecLevel) (now : UInt32) (pdu : List UInt8)
    (sec : SecAccess) : (seedKey mode byte level now pdu sec).2.Proper (pdu.getD 0 0) := by
  unfold seedKey
  split
  · exact (by decide : nrcIncorrectMessageLength ≠ nrcResponsePending)
  · split
    · exact (by decide : nrcRequstSequenceError ≠ nrcResponsePending)
    · split
      · exact (by decide : nrcExceedNumberOfAttempts ≠ nrcResponsePending)
      · split
        · exact positiveAnswer_proper pdu (by simp)
        · exact (by decide : nrcInvalidKey ≠ nrcResponsePending)

theorem udsSrvSecrityAcess_proper (rand : UInt32 → UInt32) (now : UInt64) (pdu : List UInt8)
    (sec : SecAccess) : (udsSrvSecrityAcess rand now pdu sec).2.Proper (pdu.getD 0 0) := by
  unfold udsSrvSecrityAcess
  split
  · exact (by decide : nrcIncorrectMessageLength ≠ nrcResponsePending)
  · split
    · exact (by decide : nrcRequiredTimeDelayNotExpired ≠ nrcResponsePending)
    · split
      · exact (by decide : nrcRequiredTimeDelayNotExpired ≠ nrcResponsePending)
      · unfold secSubFunction
        split
        · exact requestSeed_proper ..
        · split
          · exact seedKey_proper ..
          · split
            · exact seedKey_proper ..
            · exact (by decide : nrcSubFuncationNotSupported ≠ nrcResponsePending)

theorem securityAccess_done (clear : s.suppress = false) (sid : r.sid = 0x27)
    (session : s.session ≠ .default) :
    UdsDone c env r s (udsSecurityAccess c env r.pdu s)
      (some (.exchange ⟨r.pdu, (udsSrvSecrityAcess c.rand env.now r.pdu s.sec).2⟩)) := by
  have proper := udsSrvSecrityAcess_proper c.rand env.now r.pdu s.sec
  have effect : UdsEffect c env r s _ _ := .security session
  unfold udsSecurityAccess
  dsimp only
  cases answer : (udsSrvSecrityAcess c.rand env.now r.pdu s.sec).2 with
  | negative nrc =>
    rw [answer] at proper effect
    exact .refused effect proper
  | positive data sent =>
    rw [answer] at proper effect
    obtain ⟨more, rfl, few⟩ := proper
    exact .answered effect clear few (by simp [sid])

theorem pendings_eq (sid : UInt8) (n : Nat) (s : UdsServer σ) (clear : s.suppress = false) :
    (udsNegativeResponse sid nrcResponsePending)^[n] s =
      { s with
        out := s.out ++
          List.replicate n (.response [sidNegativeResponse, sid, nrcResponsePending]) } := by
  induction n generalizing s with
  | zero => simp
  | succ n ih =>
    rw [Function.iterate_succ_apply, udsNegativeResponse_eq, ih _ rfl, List.append_assoc,
      List.replicate_succ, ← clear]
    rfl

theorem checkLeanTuKey_done (positive : r.sid + posRespondSidMask ≠ sidNegativeResponse) :
    UdsDone c env r s (checkLeanTuKey env r.pdu s) none := by
  let pending := UdsOut.response [sidNegativeResponse, r.sid, nrcResponsePending]
  let data := [r.pdu.getD 1 0, r.pdu.getD 2 0, r.pdu.getD 3 0, env.tuKeyCheckFlagFinish]
  refine ⟨s, pending :: .requestTukey :: (List.replicate env.pendings pending ++
    [.response ((r.sid + posRespondSidMask) :: data)]), .none,
    ⟨env.pendings + 1, _, .positive data, ?_⟩, ?_⟩
  · rw [List.filterMap_cons, List.filterMap_cons, List.filterMap_append, List.filterMap_replicate]
    rfl
  · unfold checkLeanTuKey
    dsimp only
    rw [udsNegativeResponse_eq, pendings_eq _ _ _ rfl]
    refine (udsPositiveResponse_sid (by simp) positive rfl).trans ?_
    simp [pending, data, UdsRequest.sid]

theorem routineControl_done (clear : s.suppress = false) (sid : r.sid = 0x31) :
    UdsDone c env r s (udsSrvRoutineControl env r.pdu s) none := by
  have positive : r.sid + posRespondSidMask ≠ sidNegativeResponse := by
    rw [sid]
    decide
  unfold udsSrvRoutineControl
  dsimp only
  split
  · exact .refused .none (by decide)
  · split
    · exact .refused .none (by decide)
    · split
      · exact .positive .none clear (by simp) positive
      · split
        · exact .positive .none clear (by simp) positive
        · split
          · split
            · exact .positive .none clear (by simp) positive
            · exact .refused .none (by decide)
          · split
            · exact .positive .memory clear (by simp) positive
            · split
              · exact checkLeanTuKey_done positive
              · exact .refused .none (by decide)

theorem readById_done (clear : s.suppress = false) (sid : r.sid = 0x22) :
    UdsDone c env r s (udsDidReply (readDataById c.table c.old r.pdu s.did) s) none := by
  have positive : r.sid + posRespondSidMask ≠ sidNegativeResponse := by
    rw [sid]
    decide
  unfold readDataById
  dsimp only
  split
  · exact .refused .none (by decide)
  · cases got : udsDiagGetDidValue c.table (didOf r.pdu) c.old s.did with
    | error _ => exact .refused .none (by decide)
    | ok value =>
      obtain ⟨data, len⟩ := value
      refine .positive .none clear ?_ positive
      -- the length of an entry is within the buffer
      have small : len ≤ 1997 := by
        unfold udsDiagGetDidValue at got
        split at got
        · cases got
        · split at got
          · cases got
          next room =>
            dsimp only at got
            split at got
            · cases got
            · cases got
              have := c.room
              omega
      have taken := List.length_take_le len data
      simp
      omega

/-- The refusals of a write are final. -/
theorem udsDiagSetDidValue_final {table : List (DidAttr σ)} {did : UInt16} {value : List UInt8}
    {d : σ} {done : UInt8 × σ} (h : udsDiagSetDidValue table did value d = some done) :
    done.1 ≠ nrcResponsePending := by
  unfold udsDiagSetDidValue at h
  split at h
  · cases h
    exact (by decide : nrcRequestOutOfRange ≠ nrcResponsePending)
  · split at h
    · cases h
      exact (by decide : nrcIncorrectMessageLength ≠ nrcResponsePending)
    · obtain ⟨set, -, rfl⟩ := Option.map_eq_some_iff.mp h
      dsimp only
      split
      · decide
      · decide

theorem writeById_done {s' : UdsServer σ} (sid : r.sid = 0x2E) (physical : r.canId = udsCanIdPhy)
    (session : s.session = .extended) (level : s.sec.level ≠ .level0)
    (h : udsWriteDataByIdentifier c r.pdu s = some s') : UdsDone c env r s s' none := by
  obtain ⟨⟨replies, did⟩, write, rfl⟩ := Option.map_eq_some_iff.mp h
  have effect : UdsEffect c env r s _ _ := .write did physical sid session level
  unfold writeDataById at write
  dsimp only at write
  split at write
  · cases write
    exact .refused effect (by decide)
  · obtain ⟨done, set, same⟩ := Option.map_eq_some_iff.mp write
    cases same
    by_cases failed : done.1 ≠ 0
    · refine ⟨_, [.response _, .response _], effect,
        ⟨1, _, .negative done.1 (udsDiagSetDidValue_final set), rfl⟩, ?_⟩
      simp only [List.foldl_cons, List.foldl_nil, udsDidReply, if_pos failed,
        udsNegativeResponse_eq, List.append_assoc]
      rfl
    · refine ⟨_, [.response _, .response _], effect,
        ⟨1, _, .positive [r.pdu.getD 1 0, r.pdu.getD 2 0], rfl⟩, ?_⟩
      have positive : r.sid + posRespondSidMask ≠ sidNegativeResponse := by
        rw [sid]
        decide
      simp only [List.foldl_cons, List.foldl_nil, udsDidReply, if_neg failed,
        udsNegativeResponse_eq]
      refine (udsPositiveResponse_sid (by simp) positive rfl).trans ?_
      simp [UdsRequest.sid]

/-- A positive answer that fits, or a refusal that is final. -/
def DtcReply.Proper (sid : UInt8) : DtcReply → Prop
  | .positive data => ∃ more, data = (sid + posRespondSidMask) :: more ∧ more.length ≤ 4095
  | .negative id nrc => id = sid ∧ nrc ≠ nrcResponsePending
  | .overflow => True

theorem dtcReply_proper (sid : UInt8) (more : List UInt8) :
    (dtcReply ((sid + posRespondSidMask) :: more)).Proper sid := by
  unfold dtcReply
  split
  next fits =>
    rw [List.length_cons] at fits
    exact ⟨more, rfl, by omega⟩
  · trivial

theorem udsSrvReadDtc_proper (c : DiagCfg) (slots : List DiagSlot) (s : DtcServer)
    (pdu : List UInt8) : (udsSrvReadDtc c slots s pdu).2.Proper (pdu.getD 0 0) := by
  have length : (DtcReply.negative (pdu.getD 0 0) nrcIncorrectMessageLength).Proper
      (pdu.getD 0 0) := ⟨rfl, by decide⟩
  unfold udsSrvReadDtc
  split
  · exact length
  · split
    · unfold reportNumberOfDtcByStatusMask
      split
      · exact length
      · dsimp only
        exact dtcReply_proper ..
    · split
      · unfold reportDtcByStatusMask
        split
        · exact length
        · dsimp only
          split
          · exact dtcReply_proper ..
          · split
            · exact dtcReply_proper ..
            · split
              · exact dtcReply_proper ..
              · exact dtcReply_proper ..
      · split
        · unfold reportDtcSnapshotIdentification
          split
          · exact length
          · exact dtcReply_proper ..
        · split
          · unfold reportDtcSnapshotRecordByDtcNumber
            split
            · exact length
            · dsimp only
              split
              · exact ⟨rfl, by decide⟩
              · exact dtcReply_proper ..
          · split
            · unfold readSupportedDtcs
              split
              · exact length
              · exact dtcReply_proper ..
            · exact ⟨rfl, by decide⟩

theorem readDtc_done {s' : UdsServer σ} (clear : s.suppress = false) (sid : r.sid = 0x19)
    (h : udsReadDtcInformation c r.pdu s = some s') : UdsDone c env r s s' none := by
  have proper := udsSrvReadDtc_proper c.cfg c.slots s.dtc r.pdu
  have effect : UdsEffect c env r s _ _ := .faults (udsSrvReadDtc c.cfg c.slots s.dtc r.pdu).1
  unfold udsReadDtcInformation at h
  dsimp only at h
  split at h
  next data answer =>
    rw [answer] at proper
    obtain ⟨more, rfl, few⟩ := proper
    cases h
    exact .positive effect clear few (by rw [sid]; decide)
  next id nrc answer =>
    rw [answer] at proper
    obtain ⟨rfl, final⟩ := proper
    cases h
    exact .refused effect final
  next => cases h

/-- Whatever service a request asks for: what it changes, and how it is answered. -/
theorem udsServerProc_done {s' : UdsServer σ} (clear : s.suppress = false)
    (low : s.sec.level ≠ .level2) (h : udsServerProc c env r s = some s') :
    UdsDone c env r s s' (udsNote c env r s) := by
  unfold udsServerProc at h
  unfold udsNote
  cases which : udsServiceOf r.canId s.session s.sec.level r.sid with
  | error nrc =>
    rw [which] at h
    cases h
    refine .refused .none ?_
    -- none of the four codes puts the answer off
    revert which
    unfold udsServiceOf
    dsimp only
    repeat' split
    all_goals
      rintro ⟨⟩
      try decide
  | ok service =>
    obtain ⟨sid, allowed⟩ := udsServiceOf_ok which
    rw [which] at h
    cases service with
    | notSupported => cases sid
    | sessionControl =>
      cases h
      exact sessionControl_done clear (Option.some.inj sid).symm
    | ecuReset =>
      cases h
      exact ecuReset_done clear (Option.some.inj sid).symm
    | clearDtc =>
      cases h
      exact clearDtc_done (Option.some.inj sid).symm
    | readDtc => exact readDtc_done clear (Option.some.inj sid).symm h
    | readById =>
      cases h
      exact readById_done clear (Option.some.inj sid).symm
    | securityAccess =>
      cases h
      exact securityAccess_done clear (Option.some.inj sid).symm (by simp_all [UdsService.allowed])
    | commControl =>
      cases h
      exact communicationControl_done clear (Option.some.inj sid).symm
        (by simp_all [UdsService.allowed])
    | writeById =>
      obtain ⟨⟨physical, session⟩, level⟩ := by simpa [UdsService.allowed] using allowed
      exact writeById_done (Option.some.inj sid).symm physical session level h
    | ioControl => cases allowed
    | routineControl =>
      cases h
      exact routineControl_done clear (Option.some.inj sid).symm
    | testPresent =>
      cases h
      exact testerPresent_done clear (Option.some.inj sid).symm
    | controlDtcSetting =>
      cases h
      exact controlDtcSetting_done clear (Option.some.inj sid).symm
        (by simp_all [UdsService.allowed])
    | requestDownload | transferData | transferExit =>
      -- only at level 2
      exact absurd (by simp_all [UdsService.allowed]) low

end Uds
