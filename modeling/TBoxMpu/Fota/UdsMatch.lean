import TBoxMpu.Lib.Runs
import TBoxMpu.Uds.Proxy

/-!
# Diagnostic requests and their responses

`fota_uds_open`, `fota_uds_close`, `fota_uds_request` and `fota_uds_callback` between the
upgrade job and the UDS thread. `uds_mutex` is held except in the waits, so a step is what a
thread does from one wait to the next. A run also keeps which request each response answers:
the bus may deliver any response at any time and any number of times.
-/

namespace Fota

open Uds

/-! ### The two threads -/

inductive UdsState
  | idle | opened | waitOpen | waitServ
  deriving DecidableEq, Repr

/-- The static variables of `fota_uds.c` and `uds_proxy.c`. `waiting`: the job is in
`pthread_cond_timedwait(&uds_cond1)`, `signalled` since it went there; `held`: the UDS thread
is in `pthread_cond_wait(&uds_cond2)`. `ret` is what the job's last call returned. -/
structure FotaUds where
  state : UdsState
  srvId : Int
  subFun : Int32
  reqId : UInt32
  code : Int
  size : Int
  data : List UInt8
  client : UdsT
  callback : Bool
  waiting : Bool
  signalled : Bool
  held : Bool
  ret : Int

def FotaUds.initial : FotaUds :=
  ⟨.idle, 0, 0, 0, 0, 0, List.replicate 512 0, .initial, false, false, false, false, 0⟩

/-- The end of the callback: a new state wakes the job and waits for it. A signal that finds
nobody waiting is lost. -/
def FotaUds.moveTo (s : FotaUds) (next : UdsState) : FotaUds :=
  { s with state := next, signalled := s.waiting, held := true }

/-- The service a response is taken to answer. -/
def callbackSid (data : List UInt8) : Int :=
  if data.getD 0 0 = sidNegativeResponse then (data.getD 1 0).toNat
  else (data.getD 0 0).toNat - 0x40

/-- The response parameters, behind the service and perhaps the sub-function. -/
def FotaUds.keep (s : FotaUds) (data : List UInt8) (len : Nat) (skip : Nat) : FotaUds :=
  { s with
    size := len - skip
    data := (data.drop skip).take (len - skip) ++ s.data.drop (len - skip)
    code := 0 }

/-- `fota_uds_callback` -/
def fotaUdsCallback (s : FotaUds) : ClientMsg → FotaUds
  | .timeout =>
    match s.state with
    | .waitServ =>
      -- nobody has to answer these, so silence is success
      if s.reqId = s.client.canIdFun ∨ s.subFun &&& 0x80 ≠ 0 then
        { s with code := 0, size := 0 }.moveTo .opened
      else { s with code := -1 }.moveTo .opened
    | .waitOpen => { s with code := -1 }.moveTo .idle
    | .idle | .opened => s
  | .ack =>
    if s.state = .waitOpen then { s with code := 0, size := 0 }.moveTo .opened else s
  | .ind canId data len =>
    if s.state = .waitServ ∧ s.srvId = callbackSid data then
      if data.getD 0 0 = sidNegativeResponse then
        { s with code := (data.getD 2 0).toNat, size := 0 }.moveTo .opened
      -- answers to a functional request are not kept
      else if s.reqId ≠ s.client.canIdFun ∧ s.client.canIdRes = canId then
        -- the sub-function comes back in the second byte
        if s.subFun ≠ 0 ∧ s.subFun.toInt = (data.getD 1 0).toNat then
          (s.keep data len 2).moveTo .opened
        else if s.subFun = 0 then (s.keep data len 1).moveTo .opened
        else s
      else s
    else s

/-- The UDS thread calls `uds_client_cb`, if there is one. -/
def FotaUds.callClient (s : FotaUds) (msg : Option ClientMsg) : FotaUds :=
  match msg with
  | some msg => if s.callback then fotaUdsCallback s msg else s
  | none => s

/-- `uds_clr_client` -/
def FotaUds.clrClient (s : FotaUds) : FotaUds :=
  { s with client := s.client.clear, callback := false }

/-- `fota_uds_open`, to its wait. -/
def fotaUdsOpenBegin (s : FotaUds) (port : UInt8) (fid rid pid : UInt32) (sent : Bool) :
    FotaUds :=
  if s.state ≠ .idle then { s with ret := -1 }
  else
    let s := { s with client := s.client.setClient port pid fid rid, callback := true }
    -- the client stays set, though the open has failed
    if !sent then { s with ret := -1 }
    else { s with state := .waitOpen, waiting := true, signalled := false }

/-- `fota_uds_close` -/
def fotaUdsCloseNow (s : FotaUds) : FotaUds :=
  if s.state = .idle then s else { s with state := .idle }.clrClient

/-- `fota_uds_request`, to its wait. -/
def fotaUdsRequestBegin (s : FotaUds) (bc : Bool) (sid : Int) (sub : Int32) (data : List UInt8)
    (sent : Bool) : FotaUds :=
  if s.state ≠ .opened then { s with ret := -1 }
  -- the request is put together in a buffer of that size
  else if data.length + 2 > 1024 then { s with ret := -1 }
  else
    -- the state changes only once the MCU has the request
    let reqId := if bc then s.client.canIdFun else s.client.canIdPhy
    let s := { s with
      srvId := sid, subFun := sub, reqId
      client := s.client.dataRequest reqId (UInt8.ofInt sid) }
    if !sent then { s with ret := -1 }
    else { s with state := .waitServ, waiting := true, signalled := false }

/-- Why `pthread_cond_timedwait` returns; it may return zero with nobody having signalled. -/
inductive Woken
  | zero | timedOut | failed
  deriving DecidableEq, Repr

/-- `fota_uds_request` from the end of its wait on: a pending response waits again. -/
def fotaUdsRequestEnd (s : FotaUds) (res : Woken) : FotaUds :=
  let finish (s : FotaUds) : FotaUds :=
    -- response pending: the answer is still to come
    if s.code = 0x78 then { s with state := .waitServ, signalled := false }
    else { s with waiting := false, ret := if s.code ≠ 0 then -1 else 0 }
  let s := { s with held := false }
  match res with
  | .zero => finish s
  | .timedOut =>
    -- again, nobody has to answer a functional request
    if s.reqId = s.client.canIdFun then finish { s with state := .opened, code := 0, size := 0 }
    else { s with state := .opened, waiting := false, ret := -1 }
  | .failed => { s with state := .opened, waiting := false, ret := -1 }

/-- `fota_uds_open` from the end of its wait on. -/
def fotaUdsOpenEnd (s : FotaUds) (res : Woken) : FotaUds :=
  let s := { s with held := false, waiting := false }
  if res = .zero then { s with ret := 0 }
  else { s.clrClient with state := .idle, ret := -1 }

/-! ### Runs -/

/-- A request given to the bus. -/
structure UdsRequest where
  no : Nat
  functional : Bool
  sid : Int
  sub : Int32
  deriving DecidableEq, Repr

/-- With the variables, what the run so far shows. `request` is the one that `waiting` is
for, if `opening` does not say that it is for `fota_uds_open`; `succeeded` are the requests
that reported success; `heard` the responses that arrived, with the number of the request
each answers; `taken` pairs the number of the request that was waiting with the number of the
one that the response it took answers. -/
structure UdsRun where
  uds : FotaUds
  opening : Bool
  request : UdsRequest
  succeeded : List UdsRequest
  heard : List (Nat × List UInt8)
  taken : List (Nat × Nat)

def UdsRun.initial : UdsRun :=
  ⟨.initial, false, ⟨0, true, 0, 0⟩, [], [], []⟩

/-- A call of the job, the end of its wait, a message from the MCU (with the number of the
request that it answers if it is a response), a timer message, and the end of the UDS
thread's wait with nobody having signalled. -/
inductive UdsAct
  | openCall (port : UInt8) (fid rid pid : UInt32) (sent : Bool)
  | close
  | request (bc : Bool) (sid : Int) (sub : Int32) (data : List UInt8) (sent : Bool)
  | wake (res : Woken)
  | msg (answers : Nat) (buf : List UInt8) (len : Nat)
  | timer (name : UdsTimer) (seq : UInt16)
  | resume
  deriving DecidableEq, Repr

/-- The job in its wait goes on. -/
def UdsRun.wake (r : UdsRun) (res : Woken) : UdsRun :=
  if r.opening then { r with uds := fotaUdsOpenEnd r.uds res }
  else
    let uds := fotaUdsRequestEnd r.uds res
    let succeeded := if !uds.waiting ∧ uds.ret = 0 then r.request :: r.succeeded else r.succeeded
    { r with uds, succeeded }

/-- The UDS thread handles a message. -/
def UdsRun.hear (r : UdsRun) (answers : Nat) (buf : List UInt8) (len : Nat) : UdsRun :=
  let (client, msg) := udsProxy r.uds.client buf len
  let uds := { r.uds with client }.callClient msg
  match msg with
  | some (.ind _ data _) =>
    let taken := if uds.state ≠ r.uds.state then (r.request.no, answers) :: r.taken else r.taken
    { r with uds, taken, heard := (answers, data) :: r.heard }
  | _ => { r with uds }

def udsStep (r : UdsRun) : UdsAct → Option UdsRun
  | .openCall port fid rid pid sent =>
    if r.uds.waiting then none
    else some { r with uds := fotaUdsOpenBegin r.uds port fid rid pid sent, opening := true }
  | .close => if r.uds.waiting then none else some { r with uds := fotaUdsCloseNow r.uds }
  | .request bc sid sub data sent =>
    if r.uds.waiting then none
    else
      let uds := fotaUdsRequestBegin r.uds bc sid sub data sent
      if uds.waiting then
        some { r with
          uds
          opening := false
          request := ⟨r.request.no + 1, uds.reqId = uds.client.canIdFun, sid, sub⟩ }
      else some { r with uds }
  | .wake res => if r.uds.waiting then some (r.wake res) else none
  | .msg answers buf len => if r.uds.held then none else some (r.hear answers buf len)
  | .timer name seq =>
    if r.uds.held then none
    else some { r with uds := r.uds.callClient (udsTimeout r.uds.client name seq) }
  | .resume => some { r with uds := { r.uds with held := false } }

/-! ### What the callback can do -/

/-- The response is one the callback takes. -/
def FotaUds.Matches (s : FotaUds) (canId : UInt32) (data : List UInt8) : Prop :=
  s.state = .waitServ ∧ s.srvId = callbackSid data ∧
    (data.getD 0 0 = sidNegativeResponse ∨
      s.reqId ≠ s.client.canIdFun ∧ s.client.canIdRes = canId ∧
        (s.subFun = 0 ∨ s.subFun.toInt = (data.getD 1 0).toNat))

instance (s : FotaUds) (canId : UInt32) (data : List UInt8) : Decidable (s.Matches canId data) :=
  inferInstanceAs (Decidable (_ ∧ _))

/-- What a step of the UDS thread leaves as it was. -/
structure SameRequest (s s' : FotaUds) : Prop where
  srvId : s'.srvId = s.srvId
  subFun : s'.subFun = s.subFun
  reqId : s'.reqId = s.reqId
  canIdFun : s'.client.canIdFun = s.client.canIdFun
  waiting : s'.waiting = s.waiting
  waitOpen : s'.state = .waitOpen → s.state = .waitOpen

theorem timeout_cases (s : FotaUds) :
    fotaUdsCallback s .timeout = s ∨ SameRequest s (fotaUdsCallback s .timeout) ∧
      ((fotaUdsCallback s .timeout).code = 0 →
        s.reqId = s.client.canIdFun ∨ s.subFun &&& 0x80 ≠ 0) := by
  cases state : s.state with
  | idle | opened =>
    left
    simp only [fotaUdsCallback, state]
  | waitOpen =>
    right
    simp only [fotaUdsCallback, state]
    exact ⟨⟨rfl, rfl, rfl, rfl, rfl, nofun⟩, nofun⟩
  | waitServ =>
    right
    simp only [fotaUdsCallback, state]
    split
    next quiet =>
      exact ⟨⟨rfl, rfl, rfl, rfl, rfl, nofun⟩, fun _ => quiet⟩
    next =>
      exact ⟨⟨rfl, rfl, rfl, rfl, rfl, nofun⟩, nofun⟩

theorem ack_cases (s : FotaUds) :
    fotaUdsCallback s .ack = s ∨ s.state = .waitOpen ∧ SameRequest s (fotaUdsCallback s .ack) := by
  simp only [fotaUdsCallback]
  split
  next opening =>
    exact .inr ⟨opening, rfl, rfl, rfl, rfl, rfl, nofun⟩
  · exact .inl rfl

/-- Only a response that matches is taken; the result is zero for a positive one, and for a
negative one whose code is zero. -/
theorem ind_cases (s : FotaUds) (canId : UInt32) (data : List UInt8) (len : Nat) :
    fotaUdsCallback s (.ind canId data len) = s ∨
      s.Matches canId data ∧ SameRequest s (fotaUdsCallback s (.ind canId data len)) ∧
      ((fotaUdsCallback s (.ind canId data len)).code = 0 →
        data.getD 0 0 = sidNegativeResponse → data.getD 2 0 = 0) := by
  simp only [fotaUdsCallback]
  split
  next service =>
    split
    next negative =>
      refine .inr ⟨⟨service.1, service.2, .inl negative⟩,
        ⟨rfl, rfl, rfl, rfl, rfl, nofun⟩, ?_⟩
      intro code _
      have zero : (data.getD 2 0).toNat = 0 := by simpa [FotaUds.moveTo] using code
      exact UInt8.toNat_inj.mp zero
    next positive =>
      split
      next physical =>
        split
        next sub =>
          exact .inr ⟨⟨service.1, service.2, .inr ⟨physical.1, physical.2, .inr sub.2⟩⟩,
            ⟨rfl, rfl, rfl, rfl, rfl, nofun⟩,
            fun _ negative => absurd negative positive⟩
        · split
          next none =>
            exact .inr ⟨⟨service.1, service.2, .inr ⟨physical.1, physical.2, .inl none⟩⟩,
              ⟨rfl, rfl, rfl, rfl, rfl, nofun⟩,
              fun _ negative => absurd negative positive⟩
          · exact .inl rfl
      · exact .inl rfl
  · exact .inl rfl

/-! ### Answers -/

/-- The request was functional, or asked for no response. -/
def UdsRequest.Unanswered (q : UdsRequest) : Prop :=
  q.functional = true ∨ q.sub &&& 0x80 ≠ 0

instance (q : UdsRequest) : Decidable q.Unanswered :=
  inferInstanceAs (Decidable (_ ∨ _))

/-- A positive response to the service. -/
def Positive (sid : Int) (data : List UInt8) : Prop :=
  data.getD 0 0 ≠ sidNegativeResponse ∧ ((data.getD 0 0).toNat : Int) - 0x40 = sid

/-- The ECU has answered this request positively, as far as it has to. -/
def UdsRun.Answered (r : UdsRun) (q : UdsRequest) : Prop :=
  q.Unanswered ∨ ∃ data, (q.no, data) ∈ r.heard ∧ Positive q.sid data

/-- While a request waits, a response that matches it is one that answers it, and is not
negative with the code zero. -/
def UdsRun.Owns (r : UdsRun) (answers : Nat) : Option ClientMsg → Prop
  | some (.ind canId data _) => r.uds.Matches canId data →
    answers = r.request.no ∧
      (data.getD 0 0 = sidNegativeResponse → data.getD 2 0 = 0 → r.request.Unanswered)
  | some .timeout | some .ack | none => True

/-- Responses are for the request that waits; and a wait that ends with nobody having
signalled does not find the result zero of an earlier request. -/
def OwnAnswers (r : UdsRun) : UdsAct → Prop
  | .msg answers buf len => r.Owns answers (udsProxy r.uds.client buf len).2
  | .wake .zero =>
    r.opening = false → r.uds.signalled = false → r.uds.code = 0 → r.request.Unanswered
  | .openCall .. | .close | .request .. | .wake _ | .timer .. | .resume => True

instance (r : UdsRun) (answers : Nat) (msg : Option ClientMsg) : Decidable (r.Owns answers msg) :=
  match msg with
  | some (.ind ..) => inferInstanceAs (Decidable (_ → _))
  | some .timeout | some .ack | none => isTrue trivial

instance (r : UdsRun) (a : UdsAct) : Decidable (OwnAnswers r a) :=
  match a with
  | .msg answers _ _ => inferInstanceAs (Decidable (r.Owns answers _))
  | .wake .zero => inferInstanceAs (Decidable (_ → _))
  | .wake .timedOut | .wake .failed | .openCall .. | .close | .request .. | .timer .. | .resume =>
    isTrue trivial

/-! ### The invariant -/

/-- The variables are those of the request that waits, a result that woke the job is an
answer to it, and so is every success. -/
structure UdsRun.Sound (r : UdsRun) : Prop where
  asked : r.uds.waiting = true → r.opening = false →
    (r.request.functional = decide (r.uds.reqId = r.uds.client.canIdFun)) ∧
    r.request.sub = r.uds.subFun ∧ r.request.sid = r.uds.srvId
  serving : r.uds.waiting = true → r.opening = false → r.uds.state ≠ .waitOpen
  woken : r.uds.waiting = true → r.opening = false → r.uds.signalled = true → r.uds.code = 0 →
    r.Answered r.request
  answered : ∀ q ∈ r.succeeded, r.Answered q
  own : ∀ t ∈ r.taken, t.1 = t.2

theorem UdsRun.Answered.heard {r r' : UdsRun} {q : UdsRequest} (h : r.Answered q)
    (more : ∀ e ∈ r.heard, e ∈ r'.heard) : r'.Answered q := by
  rcases h with quiet | ⟨data, mem, positive⟩
  · exact .inl quiet
  · exact .inr ⟨data, more _ mem, positive⟩

theorem UdsRun.Sound.unanswered {r : UdsRun} (sound : r.Sound) (waiting : r.uds.waiting = true)
    (opening : r.opening = false)
    (h : r.uds.reqId = r.uds.client.canIdFun ∨ r.uds.subFun &&& 0x80 ≠ 0) :
    r.request.Unanswered := by
  obtain ⟨functional, sub, -⟩ := sound.asked waiting opening
  rcases h with h | h
  · exact .inl (functional.trans (decide_eq_true h))
  · exact .inr (sub ▸ h)

/-- A step of the UDS thread leaves the result of the request as it was, or gives it one that
is zero only for an answer. -/
theorem UdsRun.Sound.heard {r r' : UdsRun} (sound : r.Sound) (opening : r'.opening = r.opening)
    (request : r'.request = r.request) (succeeded : r'.succeeded = r.succeeded)
    (heard : ∀ e ∈ r.heard, e ∈ r'.heard) (own : ∀ t ∈ r'.taken, t.1 = t.2)
    (same : SameRequest r.uds r'.uds)
    (result : r'.uds.signalled = r.uds.signalled ∧ r'.uds.code = r.uds.code ∨
      (r.uds.waiting = true → r.opening = false → r'.uds.code = 0 → r'.Answered r.request)) :
    r'.Sound := by
  refine ⟨?_, ?_, ?_, ?_, own⟩
  · intro waiting closed
    rw [same.waiting] at waiting
    rw [opening] at closed
    rw [request, same.reqId, same.canIdFun, same.subFun, same.srvId]
    exact sound.asked waiting closed
  · intro waiting closed waitOpen
    rw [same.waiting] at waiting
    rw [opening] at closed
    exact sound.serving waiting closed (same.waitOpen waitOpen)
  · intro waiting closed signalled code
    rw [same.waiting] at waiting
    rw [opening] at closed
    rw [request]
    rcases result with ⟨signalled', code'⟩ | answered
    · apply (sound.woken waiting closed (signalled' ▸ signalled) (code' ▸ code)).heard heard
    · exact answered waiting closed code
  · intro q mem
    rw [succeeded] at mem
    exact (sound.answered q mem).heard heard

/-- The callback is told of a timer, or that the MCU has its settings. -/
theorem UdsRun.Sound.told {r : UdsRun} (sound : r.Sound) (client : UdsT) {msg : ClientMsg}
    (canIdFun : client.canIdFun = r.uds.client.canIdFun) (h : msg = .timeout ∨ msg = .ack) :
    UdsRun.Sound { r with uds := fotaUdsCallback { r.uds with client } msg } := by
  have quiet : UdsRun.Sound { r with uds := { r.uds with client } } :=
    sound.heard rfl rfl rfl (fun _ mem => mem) sound.own ⟨rfl, rfl, rfl, canIdFun, rfl, id⟩
      (.inl ⟨rfl, rfl⟩)
  rcases h with rfl | rfl
  · rcases timeout_cases { r.uds with client } with same | ⟨same, code⟩
    · rw [same]
      exact quiet
    · refine quiet.heard rfl rfl rfl (fun _ mem => mem) quiet.own same (.inr ?_)
      intro waiting opening zero
      exact .inl (quiet.unanswered waiting opening (code zero))
  · rcases ack_cases { r.uds with client } with same | ⟨waitOpen, same⟩
    · rw [same]
      exact quiet
    · refine quiet.heard rfl rfl rfl (fun _ mem => mem) quiet.own same (.inr ?_)
      intro waiting opening _
      exact absurd waitOpen (quiet.serving waiting opening)

theorem udsTimeout_eq {uds : UdsT} {name : UdsTimer} {seq : UInt16} {msg : ClientMsg}
    (h : udsTimeout uds name seq = some msg) : msg = .timeout := by
  unfold udsTimeout at h
  split at h
  · cases h
  split at h
  all_goals cases h
  all_goals rfl

theorem UdsRun.Sound.timer {r : UdsRun} (sound : r.Sound) (name : UdsTimer) (seq : UInt16) :
    UdsRun.Sound { r with uds := r.uds.callClient (udsTimeout r.uds.client name seq) } := by
  unfold FotaUds.callClient
  split
  next msg h =>
    split
    · exact sound.told r.uds.client rfl (.inl (udsTimeout_eq h))
    · exact sound
  · exact sound

theorem UdsRun.Sound.ind {r : UdsRun} (sound : r.Sound) {client : UdsT} {answers : Nat}
    {canId : UInt32} {data : List UInt8} {len : Nat}
    (canIdFun : client.canIdFun = r.uds.client.canIdFun)
    (canIdRes : client.canIdRes = r.uds.client.canIdRes)
    (own : r.Owns answers (some (.ind canId data len))) {uds : FotaUds}
    (call : uds = fotaUdsCallback { r.uds with client } (.ind canId data len)) :
    UdsRun.Sound { r with
      uds
      taken := if uds.state ≠ r.uds.state then (r.request.no, answers) :: r.taken else r.taken
      heard := (answers, data) :: r.heard } := by
  have more : ∀ e ∈ r.heard, e ∈ (answers, data) :: r.heard := fun _ => List.mem_cons_of_mem _
  rcases ind_cases { r.uds with client } canId data len with same | ⟨matched, same, code⟩
  · rw [same] at call
    subst call
    refine sound.heard rfl rfl rfl more ?_ ⟨rfl, rfl, rfl, canIdFun, rfl, id⟩
      (.inl ⟨rfl, rfl⟩)
    rw [if_neg (by simp)]
    exact sound.own
  · rw [← call] at same code
    have matched' : r.uds.Matches canId data := by
      unfold FotaUds.Matches at matched ⊢
      rwa [canIdFun, canIdRes] at matched
    obtain ⟨rfl, negative⟩ := own matched'
    have same : SameRequest r.uds uds :=
      ⟨same.srvId, same.subFun, same.reqId, same.canIdFun.trans canIdFun, same.waiting,
        same.waitOpen⟩
    refine sound.heard rfl rfl rfl more ?_ same (.inr ?_)
    · intro t mem
      dsimp only at mem
      split at mem
      · rcases List.mem_cons.mp mem with rfl | mem
        · rfl
        · exact sound.own t mem
      · exact sound.own t mem
    · intro waiting opening zero
      by_cases h : data.getD 0 0 = sidNegativeResponse
      · exact .inl (negative h (code zero h))
      · refine .inr ⟨data, List.mem_cons_self, h, ?_⟩
        have service := matched'.2.1
        unfold callbackSid at service
        rw [if_neg h] at service
        exact service.symm.trans (sound.asked waiting opening).2.2.symm

theorem UdsRun.Sound.hear {r : UdsRun} (sound : r.Sound) {answers : Nat} {buf : List UInt8}
    {len : Nat} (own : r.Owns answers (udsProxy r.uds.client buf len).2) :
    (r.hear answers buf len).Sound := by
  obtain ⟨canIdFun, canIdRes⟩ := udsProxy_client r.uds.client buf len
  unfold UdsRun.hear
  generalize udsProxy r.uds.client buf len = out at own canIdFun canIdRes
  obtain ⟨client, msg⟩ := out
  have quiet : UdsRun.Sound { r with uds := { r.uds with client } } :=
    sound.heard rfl rfl rfl (fun _ mem => mem) sound.own ⟨rfl, rfl, rfl, canIdFun, rfl, id⟩
      (.inl ⟨rfl, rfl⟩)
  cases msg with
  | none => exact quiet
  | some msg =>
    cases msg with
    | timeout =>
      dsimp only [FotaUds.callClient]
      split
      · exact sound.told client canIdFun (.inl rfl)
      · exact quiet
    | ack =>
      dsimp only [FotaUds.callClient]
      split
      · exact sound.told client canIdFun (.inr rfl)
      · exact quiet
    | ind canId data len =>
      dsimp only [FotaUds.callClient]
      split
      · exact sound.ind canIdFun canIdRes own rfl
      · rw [if_neg (by simp)]
        exact quiet.heard rfl rfl rfl (fun _ => List.mem_cons_of_mem _) sound.own
          ⟨rfl, rfl, rfl, rfl, rfl, id⟩ (.inl ⟨rfl, rfl⟩)

/-- A job that does not wait for a response. -/
theorem UdsRun.Sound.away {r r' : UdsRun} (sound : r.Sound) (succeeded : r'.succeeded = r.succeeded)
    (heard : r'.heard = r.heard) (taken : r'.taken = r.taken)
    (away : r'.uds.waiting = true → r'.opening = true) : r'.Sound := by
  refine ⟨?_, ?_, ?_, ?_, taken ▸ sound.own⟩
  · exact fun waiting closed => nomatch (away waiting).symm.trans closed
  · exact fun waiting closed => nomatch (away waiting).symm.trans closed
  · exact fun waiting closed => nomatch (away waiting).symm.trans closed
  · intro q mem
    rw [succeeded] at mem
    exact (sound.answered q mem).heard fun e mem => heard ▸ mem

theorem fotaUdsRequestBegin_waiting {s : FotaUds} {bc : Bool} {sid : Int} {sub : Int32}
    {data : List UInt8} {sent : Bool} (ready : s.waiting = false)
    (h : (fotaUdsRequestBegin s bc sid sub data sent).waiting = true) :
    (fotaUdsRequestBegin s bc sid sub data sent).state = .waitServ ∧
    (fotaUdsRequestBegin s bc sid sub data sent).signalled = false ∧
    (fotaUdsRequestBegin s bc sid sub data sent).srvId = sid ∧
    (fotaUdsRequestBegin s bc sid sub data sent).subFun = sub := by
  unfold fotaUdsRequestBegin at h ⊢
  split at h
  · cases ready.symm.trans h
  next opened =>
    split at h
    · cases ready.symm.trans h
    next fits =>
      cases sent with
      | false => cases ready.symm.trans h
      | true =>
        rw [if_neg opened, if_neg fits]
        exact ⟨rfl, rfl, rfl, rfl⟩

/-- The end of a request's wait: it waits again, or fails, or has a result zero, or was
functional. -/
theorem fotaUdsRequestEnd_cases (s : FotaUds) (res : Woken) :
    ((fotaUdsRequestEnd s res).waiting = s.waiting ∧
      SameRequest s { fotaUdsRequestEnd s res with state := s.state } ∧
      (fotaUdsRequestEnd s res).state = .waitServ ∧
      (fotaUdsRequestEnd s res).signalled = false) ∨
    (fotaUdsRequestEnd s res).waiting = false ∧
      ((fotaUdsRequestEnd s res).ret = 0 →
        s.code = 0 ∧ res = .zero ∨ s.reqId = s.client.canIdFun) := by
  cases res with
  | zero =>
    simp only [fotaUdsRequestEnd]
    split
    · exact .inl ⟨rfl, ⟨rfl, rfl, rfl, rfl, rfl, id⟩, rfl, rfl⟩
    · refine .inr ⟨rfl, fun ok => .inl ⟨?_, trivial⟩⟩
      apply Decidable.byContradiction
      intro h
      simp [h] at ok
  | timedOut =>
    simp only [fotaUdsRequestEnd]
    right
    split
    next functional => exact ⟨rfl, fun _ => .inr functional⟩
    · exact ⟨rfl, nofun⟩
  | failed => exact .inr ⟨rfl, nofun⟩

theorem UdsRun.Sound.wake {r : UdsRun} (sound : r.Sound) {res : Woken}
    (waiting : r.uds.waiting = true) (own : OwnAnswers r (.wake res)) : (r.wake res).Sound := by
  unfold UdsRun.wake
  split
  · refine sound.away rfl rfl rfl ?_
    intro waiting
    unfold fotaUdsOpenEnd at waiting
    split at waiting
    all_goals cases waiting
  next opening =>
    replace opening : r.opening = false := by simpa using opening
    rcases fotaUdsRequestEnd_cases r.uds res with ⟨again, same, state, signalled⟩ | ⟨ended, ok⟩
    · dsimp only
      rw [if_neg (by simp [again, waiting])]
      refine ⟨?_, ?_, ?_, sound.answered, sound.own⟩
      · intro _ _
        obtain ⟨functional, sub, sid⟩ := sound.asked waiting opening
        refine ⟨?_, sub.trans same.subFun.symm, sid.trans same.srvId.symm⟩
        rw [functional, ← same.reqId, ← same.canIdFun]
      · intro _ _ waitOpen
        cases state.symm.trans waitOpen
      · intro _ _ woken
        cases signalled.symm.trans woken
    · refine ⟨?_, ?_, ?_, ?_, sound.own⟩
      · intro waiting
        cases ended.symm.trans waiting
      · intro waiting
        cases ended.symm.trans waiting
      · intro waiting
        cases ended.symm.trans waiting
      · intro q mem
        dsimp only at mem
        split at mem
        next success =>
          rcases List.mem_cons.mp mem with rfl | mem
          · rcases ok success.2 with ⟨zero, rfl⟩ | functional
            · cases woken : r.uds.signalled with
              | true => exact sound.woken waiting opening woken zero
              | false => exact .inl (own opening woken zero)
            · exact .inl (sound.unanswered waiting opening (.inl functional))
          · exact sound.answered q mem
        · exact sound.answered q mem

theorem udsStep_sound {r r' : UdsRun} {a : UdsAct} (sound : r.Sound) (own : OwnAnswers r a)
    (step : udsStep r a = some r') : r'.Sound := by
  cases a with
  | openCall port fid rid pid sent =>
    obtain ⟨-, step⟩ := Option.ite_none_left_eq_some.mp step
    obtain rfl := Option.some.inj step
    exact sound.away rfl rfl rfl fun _ => rfl
  | close =>
    obtain ⟨ready, step⟩ := Option.ite_none_left_eq_some.mp step
    obtain rfl := Option.some.inj step
    refine sound.away rfl rfl rfl fun waiting => absurd ?_ ready
    unfold fotaUdsCloseNow at waiting
    split at waiting
    all_goals exact waiting
  | request bc sid sub data sent =>
    obtain ⟨ready, step⟩ := Option.ite_none_left_eq_some.mp step
    split at step
    next waiting =>
      obtain rfl := Option.some.inj step
      obtain ⟨state, signalled, srvId, subFun⟩ :=
        fotaUdsRequestBegin_waiting (by simpa using ready) waiting
      refine ⟨fun _ _ => ⟨rfl, subFun.symm, srvId.symm⟩, ?_, ?_, sound.answered, sound.own⟩
      · intro _ _ waitOpen
        cases state.symm.trans waitOpen
      · intro _ _ woken
        cases signalled.symm.trans woken
    next ready' =>
      obtain rfl := Option.some.inj step
      exact sound.away rfl rfl rfl fun waiting => absurd waiting ready'
  | wake res =>
    obtain ⟨waiting, step⟩ := Option.ite_none_right_eq_some.mp step
    obtain rfl := Option.some.inj step
    exact sound.wake waiting own
  | msg answers buf len =>
    obtain ⟨-, step⟩ := Option.ite_none_left_eq_some.mp step
    obtain rfl := Option.some.inj step
    exact sound.hear own
  | timer name seq =>
    obtain ⟨-, step⟩ := Option.ite_none_left_eq_some.mp step
    obtain rfl := Option.some.inj step
    exact sound.timer name seq
  | resume =>
    obtain rfl := Option.some.inj step
    exact sound.heard rfl rfl rfl (fun _ mem => mem) sound.own ⟨rfl, rfl, rfl, rfl, rfl, id⟩
      (.inl ⟨rfl, rfl⟩)

/-! ### Requests and responses match -/

/-- As long as no response to an earlier request comes while one that it matches waits, every
request that reports success was answered, and every response that was taken is the answer
to the request that took it. -/
theorem responses_matched {r : UdsRun}
    (h : Runs.Reach (· = UdsRun.initial)
      (Runs.Guarded OwnAnswers fun r a r' => udsStep r a = some r') r) :
    (∀ q ∈ r.succeeded, r.Answered q) ∧ ∀ t ∈ r.taken, t.1 = t.2 := by
  have sound : r.Sound := by
    apply h.invariant
    · rintro r rfl
      exact ⟨nofun, nofun, nofun, nofun, nofun⟩
    · exact fun r a r' sound ⟨own, step⟩ => udsStep_sound sound own step
  exact ⟨sound.answered, sound.own⟩

/-- The client is opened, and a block is transferred and answered. -/
def transferRun : List UdsAct :=
  [.openCall 1 0x7DF 0x708 0x700 true, .msg 0 [0xF8] 1, .wake .zero,
    .request false 0x36 0 [1, 0xAA] true,
    .msg 1 [0xF4, 0x08, 0x07, 0, 0, 2, 0, 0x76, 1] 9, .wake .zero]

theorem block_answered :
    ∃ r, transferRun.foldlM udsStep .initial = some r ∧
      r.succeeded = [⟨1, false, 0x36, 0⟩] ∧ (∀ q ∈ r.succeeded, r.Answered q) ∧
      ∀ t ∈ r.taken, t.1 = t.2 := by
  refine ⟨_, rfl, by decide, ?_⟩
  have begun : Runs.Reach (· = UdsRun.initial)
      (Runs.Guarded OwnAnswers fun r a r' => udsStep r a = some r') .initial :=
    Runs.Reach.start rfl
  exact responses_matched (begun.run_checked transferRun rfl)

/-- The first block times out; its response comes while the second one waits. -/
def lateRun : List UdsAct :=
  [.openCall 1 0x7DF 0x708 0x700 true, .msg 0 [0xF8] 1, .wake .zero,
    .request false 0x36 0 [1, 0xAA] true, .wake .timedOut,
    .request false 0x36 0 [2, 0xBB] true,
    .msg 1 [0xF4, 0x08, 0x07, 0, 0, 2, 0, 0x76, 1] 9, .wake .zero]

/-- The second block is reported as transferred, and the ECU never answered it. -/
theorem late_answer_taken :
    ∃ r, lateRun.foldlM udsStep .initial = some r ∧ (2, 1) ∈ r.taken ∧
      ∃ q ∈ r.succeeded, q.no = 2 ∧ ¬ r.Answered q := by
  obtain ⟨r, run, taken, succeeded, heard⟩ : ∃ r, lateRun.foldlM udsStep .initial = some r ∧
      (2, 1) ∈ r.taken ∧ ⟨2, false, 0x36, 0⟩ ∈ r.succeeded ∧ r.heard = [(1, [0x76, 1])] :=
    ⟨_, rfl, by decide, by decide, by decide⟩
  refine ⟨r, run, taken, _, succeeded, rfl, ?_⟩
  rintro (quiet | ⟨data, mem, -⟩)
  · exact absurd quiet (by decide)
  · simp [heard] at mem

end Fota
