import TBoxMpu.Lib.Runs

/-!
# Requests, downloads and upgrades

`fota_ctrl.c` with the two jobs it starts: the download thread of `http.c` and the upgrade
that `fota_main.c` runs for each message. Every function holds the lock for its whole body,
so a step is one call; the two statements of `fota_selfupgrade_finish_status` are two steps.
-/

namespace Fota

/-! ### The request and its jobs -/

inductive FotaStat
  | noreq | newreq | pending | download | newfile | oldfile | upgrade | finish
  deriving DecidableEq, Repr

/-- `FOTA_EVENT_*`, and `HTTP_EVENT_*` for downloads. -/
inductive JobEvent
  | finish | process | error
  deriving DecidableEq, Repr

/-- `fota_req_t`; `url` is its first URL. -/
structure FotaReq where
  url : List UInt8
  state : FotaStat
  percent : Int
  cancel : Bool
  test : Int
  silent : Bool
  time : Nat
  deriving DecidableEq, Repr

/-- A job: not there, before its last event, after it. -/
inductive JobPhase
  | idle | running | reported
  deriving DecidableEq, Repr

/-- `http` is the download thread, which keeps `req.busy` set; `queued` counts the messages
for the FOTA thread, whose job is `upd`; `selfReports` the calls of
`fota_selfupgrade_finish_status` between their statements. `started` is not in the program:
the request came to its state by starting a job. -/
structure Ctrl where
  req : FotaReq
  http : JobPhase
  queued : Nat
  upd : JobPhase
  tboxSelfupgrade : Bool
  fotaSleep : Bool
  selfReports : Nat
  started : Bool
  deriving DecidableEq, Repr

def Ctrl.initial : Ctrl :=
  ⟨⟨[], .noreq, 0, false, 0, false, 0⟩, .idle, 0, .idle, false, false, 0, false⟩

/-! ### Starting jobs -/

/-- `http_download_request` for the stored URL. -/
def httpDownloadRequest (s : Ctrl) : Int × Ctrl :=
  if s.http ≠ .idle then (-1, s)
  else if s.req.url.length ≥ 256 then (-1, s)
  else (0, { s with http := .running })

/-- `fota_request`; `sent` tells whether `tcom_send_msg` takes the message. -/
def fotaRequest (sent : Bool) (s : Ctrl) : Int × Ctrl :=
  if sent then (0, { s with queued := s.queued + 1 }) else (-1, s)

/-! ### Call-backs -/

def fotaUpdCb (evt : JobEvent) (par : Int) (s : Ctrl) : Int × Ctrl :=
  -- also the last event is answered so, and the request stays in its state
  if s.req.cancel ∨ s.req.state ≠ .upgrade then
    (-1, { s with req := { s.req with cancel := false } })
  else
    match evt with
    | .process => (0, { s with req := { s.req with percent := par } })
    | .error => (0, { s with req := { s.req with state := .oldfile } })
    | .finish => (0, { s with req := { s.req with state := .finish } })

def fotaDldCb (sent : Bool) (evt : JobEvent) (par : Int) (s : Ctrl) : Int × Ctrl :=
  if s.req.state ≠ .download then (-1, s)
  else if s.req.cancel then
    (-1, { s with req := { s.req with cancel := false, state := .noreq } })
  else
    match evt with
    | .process => (0, { s with req := { s.req with percent := par } })
    | .error => (0, { s with req := { s.req with state := .pending } })
    | .finish =>
      -- nobody is asked: the upgrade follows the download
      if s.req.silent ∧ s.req.test = 0 then
        let (res, s) := fotaRequest sent { s with req := { s.req with percent := 0 } }
        if res ≠ 0 then (0, { s with req := { s.req with state := .oldfile } })
        else (0, { s with req := { s.req with state := .upgrade }, started := true })
      else (0, { s with req := { s.req with state := .newfile } })

/-! ### Requests -/

/-- The state of the request after its ten seconds. -/
def FotaReq.aged (now : Nat) (req : FotaReq) : FotaReq :=
  if (req.state = .newreq ∨ req.state = .newfile) ∧ now - req.time > 10000 then
    { req with state := .noreq }
  else req

/-- "fota is busy in another request" -/
def FotaReq.busy (req : FotaReq) : Bool :=
  req.state ≠ .noreq && req.state ≠ .pending && req.state ≠ .oldfile && req.state ≠ .finish

def fotaNewRequest (url : List UInt8) (test : Int) (now : Nat) (s : Ctrl) : Int × Ctrl :=
  let s := { s with req := s.req.aged now }
  if s.req.busy then (-1, s)
  else
    let s := { s with req := { s.req with test } }
    if test = 0 ∧ url.length ≥ 256 then (-1, s)
    else
      let s := { s with req := { s.req with url := if test = 0 then url else s.req.url } }
      -- nobody is asked: the download begins at once
      if test = 0 ∧ s.req.silent then
        let (res, s) := httpDownloadRequest s
        if res ≠ 0 then (-1, { s with req := { s.req with state := .pending } })
        else (0, { s with req := { s.req with state := .download, percent := 0 }, started := true })
      else (0, { s with req := { s.req with state := .newreq, time := now } })

def fotaDldStart (s : Ctrl) : Int × Ctrl :=
  if s.req.state ≠ .newreq ∧ s.req.state ≠ .pending then (-1, s)
  else
    -- in test mode no job runs behind the state
    let (res, s) := if s.req.test = 0 then httpDownloadRequest s else (0, s)
    if res ≠ 0 then (-1, { s with req := { s.req with state := .pending } })
    else
      (0, { s with
        req := { s.req with state := .download, percent := 0 }, started := s.req.test = 0 })

def fotaDldCancel (s : Ctrl) : Ctrl :=
  if s.req.state = .newreq then { s with req := { s.req with state := .pending } }
  else if s.req.state = .download then
    -- the download sees it at its next report
    { s with req := { s.req with cancel := s.req.test = 0 } }
  else s

/-- The percentage for the head unit; in test mode asking makes it grow. -/
def fotaDldPercent (now : Nat) (s : Ctrl) : Int × Ctrl :=
  match s.req.state with
  | .download =>
    let percent := s.req.percent + 10
    if s.req.test = 1 ∨ s.req.test = 2 then
      let req := { s.req with percent }
      (percent, { s with
        req := if percent ≥ 100 then { req with state := .newfile, time := now } else req })
    else if s.req.test = 3 then
      let req := { s.req with percent }
      (percent, { s with req := if percent ≥ 50 then { req with state := .pending } else req })
    else (s.req.percent, s)
  | .newfile | .upgrade | .finish => (101, s)
  | _ => (-1, s)

def fotaUpdStart (sent : Bool) (s : Ctrl) : Int × Ctrl :=
  if s.req.state ≠ .newfile ∧ s.req.state ≠ .oldfile then (-1, s)
  else
    -- the job is only asked for, the FOTA thread starts it
    let (res, s) := if s.req.test = 0 then fotaRequest sent s else (0, s)
    if res ≠ 0 then (-1, { s with req := { s.req with state := .oldfile } })
    else
      (0, { s with
        req := { s.req with state := .upgrade, percent := 0 }, started := s.req.test = 0 })

def fotaUpdCancel (s : Ctrl) : Ctrl :=
  if s.req.state = .newfile then { s with req := { s.req with state := .oldfile } }
  else if s.req.state = .upgrade then
    { s with req := { s.req with cancel := s.req.test = 0 } }
  else s

def fotaUpdPercent (s : Ctrl) : Int × Ctrl :=
  match s.req.state with
  | .upgrade =>
    let percent := s.req.percent + 10
    -- without a job the percentage grows with each question
    if s.req.test = 1 then
      let req := { s.req with percent }
      (percent, { s with req := if percent ≥ 100 then { req with state := .finish } else req })
    else if s.req.test = 2 then
      let req := { s.req with percent }
      (percent, { s with req := if percent ≥ 50 then { req with state := .oldfile } else req })
    else (s.req.percent, s)
  | .finish => (101, s)
  | _ => (-1, s)

/-! ### Steps -/

/-- A call by a requester, or what a job does next. -/
inductive CtrlAct
  | newRequest (url : List UInt8) (test : Int) (now : Nat)
  | dldStart
  | dldCancel
  | dldPercent (now : Nat)
  | updStart (sent : Bool)
  | updCancel
  | updPercent
  | silent (en : Bool)
  | testmode (mode : Int)
  /-- The download thread reports data, with all of it or not; its last event; its end. -/
  | dldReceived (sent : Bool) (percent : Int)
  | dldReport (sent : Bool) (res : JobEvent)
  | dldExit
  /-- A power-management message. -/
  | pm (sleep : Bool)
  /-- The FOTA thread takes a message; it loads a package, for a job or for a test command;
  progress; last event; end. -/
  | updTake
  | updLoad (tbox : Bool)
  | updProgress (percent : Int)
  | updReport (res : Int)
  | updExit
  /-- The two statements of `fota_selfupgrade_finish_status`. -/
  | selfState
  | selfReport
  deriving DecidableEq, Repr

def ctrlStep (s : Ctrl) : CtrlAct → Option Ctrl
  | .newRequest url test now => some (fotaNewRequest url test now s).2
  | .dldStart => some (fotaDldStart s).2
  | .dldCancel => some (fotaDldCancel s)
  | .dldPercent now => some (fotaDldPercent now s).2
  | .updStart sent => some (fotaUpdStart sent s).2
  | .updCancel => some (fotaUpdCancel s)
  | .updPercent => some (fotaUpdPercent s).2
  | .silent en => some { s with req := { s.req with silent := en } }
  | .testmode mode => some { s with req := { s.req with test := mode } }
  | .dldReceived sent percent =>
    if s.http = .running then
      let evt := if percent ≥ 100 then .finish else .process
      some (fotaDldCb sent evt (if percent ≥ 100 then 100 else percent) s).2
    else none
  | .dldReport sent res =>
    -- The result is an error unless there was no memory for the client.
    if s.http = .running ∧ res ≠ .process then
      some { (fotaDldCb sent res 0 s).2 with http := .reported }
    else none
  | .dldExit => if s.http = .reported then some { s with http := .idle } else none
  | .pm sleep => some { s with fotaSleep := sleep }
  | .updTake =>
    if s.upd = .idle ∧ s.queued > 0 then
      let s := { s with queued := s.queued - 1 }
      if s.fotaSleep then some { (fotaUpdCb .error 0 s).2 with upd := .reported }
      else some { s with upd := .running }
    else none
  | .updLoad tbox => some { s with tboxSelfupgrade := s.tboxSelfupgrade || tbox }
  | .updProgress percent =>
    if s.upd = .running then some (fotaUpdCb .process percent s).2 else none
  | .updReport res =>
    if s.upd = .running then
      let s := { s with upd := .reported }
      if s.tboxSelfupgrade then some s
      else some (fotaUpdCb (if res ≠ 0 then .error else .finish) 0 s).2
    else none
  | .updExit => if s.upd = .reported then some { s with upd := .idle } else none
  | .selfState =>
    some { s with
      req := { s.req with state := .upgrade }, selfReports := s.selfReports + 1, started := true }
  | .selfReport =>
    if s.selfReports > 0 then
      some (fotaUpdCb .finish 0 { s with selfReports := s.selfReports - 1 }).2
    else none

/-! ### Who owns the state -/

/-- A download or an upgrade that was started as a job has a job that has yet to give its
last event. -/
structure Ctrl.Owned (s : Ctrl) : Prop where
  download : s.req.state = .download → s.started = true → s.http = .running
  upgrade : s.req.state = .upgrade → s.started = true →
    s.queued > 0 ∨ s.upd = .running ∨ s.selfReports > 0

/-- The last event of an upgrade is given, and with no cancel request pending. -/
def Delivered (s : Ctrl) : CtrlAct → Prop
  | .updReport _ => s.req.state = .upgrade → s.req.cancel = false ∧ s.tboxSelfupgrade = false
  | .updTake => s.fotaSleep = true → s.req.state = .upgrade → s.req.cancel = false
  | .selfReport => s.req.state = .upgrade → s.req.cancel = false
  | _ => True

/-- The jobs are as before; so is the state, unless it is neither of the two. -/
structure Settles (s t : Ctrl) : Prop where
  http : t.http = s.http
  queued : t.queued = s.queued
  upd : t.upd = s.upd
  selfReports : t.selfReports = s.selfReports
  state : t.req.state = s.req.state ∧ t.started = s.started ∨
    t.req.state ≠ .download ∧ t.req.state ≠ .upgrade

theorem Settles.owned {s t : Ctrl} (settles : Settles s t) (owned : s.Owned) : t.Owned := by
  obtain ⟨http, queued, upd, selfReports, ⟨state, started⟩ | ⟨download, upgrade⟩⟩ := settles
  · constructor
    · rw [state, started, http]
      exact owned.download
    · rw [state, started, queued, upd, selfReports]
      exact owned.upgrade
  · exact ⟨fun h => absurd h download, fun h => absurd h upgrade⟩

theorem Settles.refl (s : Ctrl) : Settles s s := ⟨rfl, rfl, rfl, rfl, .inl ⟨rfl, rfl⟩⟩

/-! ### The functions -/

theorem fotaUpdCb_settles (evt : JobEvent) (par : Int) (s : Ctrl) :
    Settles s (fotaUpdCb evt par s).2 := by
  unfold fotaUpdCb
  split
  · exact ⟨rfl, rfl, rfl, rfl, .inl ⟨rfl, rfl⟩⟩
  · cases evt with
    | process => exact ⟨rfl, rfl, rfl, rfl, .inl ⟨rfl, rfl⟩⟩
    | error | finish => exact ⟨rfl, rfl, rfl, rfl, .inr ⟨nofun, nofun⟩⟩

/-- A last event that finds no cancel request ends the upgrade. -/
theorem fotaUpdCb_ends {evt : JobEvent} (par : Int) {s : Ctrl} (last : evt ≠ .process)
    (clear : s.req.state = .upgrade → s.req.cancel = false) :
    (fotaUpdCb evt par s).2.req.state ≠ .upgrade := by
  unfold fotaUpdCb
  split
  · rename_i h
    rcases h with cancel | other
    · intro upgrade
      rw [clear upgrade] at cancel
      cases cancel
    · exact other
  · cases evt with
    | process => exact absurd rfl last
    | error | finish => exact nofun

theorem fotaUpdCb_last (evt : JobEvent) (par : Int) (s : Ctrl) (last : evt ≠ .process)
    (clear : s.req.state = .upgrade → s.req.cancel = false)
    (download : s.req.state = .download → s.started = true → s.http = .running) :
    let t := (fotaUpdCb evt par s).2
    (t.req.state = .download → t.started = true → t.http = .running) ∧ t.req.state ≠ .upgrade := by
  have settles := fotaUpdCb_settles evt par s
  refine ⟨fun h started => ?_, fotaUpdCb_ends par last clear⟩
  rw [settles.http]
  rcases settles.state with ⟨state, flag⟩ | ⟨other, _⟩
  · exact download (state ▸ h) (flag ▸ started)
  · exact absurd h other

/-- Whatever event a download gives, its state is owned as before if the job goes on. -/
theorem fotaDldCb_owned (sent : Bool) (evt : JobEvent) (par : Int) {s : Ctrl}
    (owned : s.Owned) : (fotaDldCb sent evt par s).2.Owned := by
  unfold fotaDldCb
  split
  · exact owned
  split
  · exact ⟨nofun, nofun⟩
  match evt with
  | .process =>
    have settles : Settles s { s with req := { s.req with percent := par } } :=
      ⟨rfl, rfl, rfl, rfl, .inl ⟨rfl, rfl⟩⟩
    exact settles.owned owned
  | .error => exact ⟨nofun, nofun⟩
  | .finish =>
    dsimp only
    split
    · cases sent with
      | true => exact ⟨nofun, fun _ _ => .inl (Nat.succ_pos _)⟩
      | false => exact ⟨nofun, nofun⟩
    · exact ⟨nofun, nofun⟩

/-- The last event ends the download, with or without a cancel request. -/
theorem fotaDldCb_ends (sent : Bool) {evt : JobEvent} (par : Int) {s : Ctrl}
    (last : evt ≠ .process) : (fotaDldCb sent evt par s).2.req.state ≠ .download := by
  unfold fotaDldCb
  split
  · assumption
  split
  · exact nofun
  match evt, last with
  | .error, _ => exact nofun
  | .finish, _ =>
    dsimp only
    split
    · cases sent <;> exact nofun
    · exact nofun

theorem httpDownloadRequest_started {s : Ctrl} (h : (httpDownloadRequest s).1 = 0) :
    (httpDownloadRequest s).2.http = .running := by
  unfold httpDownloadRequest at h ⊢
  split
  · simp_all
  · split
    · simp_all
    · rfl

theorem aged_settles (now : Nat) (s : Ctrl) : Settles s { s with req := s.req.aged now } := by
  refine ⟨rfl, rfl, rfl, rfl, ?_⟩
  unfold FotaReq.aged
  split
  · exact .inr ⟨nofun, nofun⟩
  · exact .inl ⟨rfl, rfl⟩

theorem fotaNewRequest_owned (url : List UInt8) (test : Int) (now : Nat) {s : Ctrl}
    (owned : s.Owned) : (fotaNewRequest url test now s).2.Owned := by
  unfold fotaNewRequest
  replace owned := (aged_settles now s).owned owned
  generalize { s with req := s.req.aged now } = s' at owned
  by_cases busy : s'.req.busy
  · simpa only [busy, if_true] using owned
  simp only [busy, if_false, Bool.false_eq_true]
  split
  · have settles : Settles s' { s' with req := { s'.req with test } } :=
      ⟨rfl, rfl, rfl, rfl, .inl ⟨rfl, rfl⟩⟩
    exact settles.owned owned
  generalize (if test = 0 then url else s'.req.url) = stored
  split
  · split
    · exact ⟨nofun, nofun⟩
    · rename_i zero
      exact ⟨fun _ _ => httpDownloadRequest_started (Decidable.not_not.mp zero), nofun⟩
  · exact ⟨nofun, nofun⟩

theorem fotaDldStart_owned {s : Ctrl} (owned : s.Owned) : (fotaDldStart s).2.Owned := by
  unfold fotaDldStart
  split
  · exact owned
  · by_cases test : s.req.test = 0
    · simp only [test, if_true]
      split
      · exact ⟨nofun, nofun⟩
      · rename_i zero
        exact ⟨fun _ _ => httpDownloadRequest_started (Decidable.not_not.mp zero), nofun⟩
    · simp only [test, if_false]
      exact ⟨nofun, nofun⟩

theorem fotaUpdStart_owned (sent : Bool) {s : Ctrl} (owned : s.Owned) :
    (fotaUpdStart sent s).2.Owned := by
  unfold fotaUpdStart
  split
  · exact owned
  · by_cases test : s.req.test = 0
    · simp only [test, if_true]
      cases sent with
      | true => exact ⟨nofun, fun _ _ => .inl (Nat.succ_pos _)⟩
      | false => exact ⟨nofun, nofun⟩
    · simp only [test, if_false]
      exact ⟨nofun, nofun⟩

theorem fotaDldCancel_settles (s : Ctrl) : Settles s (fotaDldCancel s) := by
  unfold fotaDldCancel
  split
  · exact ⟨rfl, rfl, rfl, rfl, .inr ⟨nofun, nofun⟩⟩
  · split
    · exact ⟨rfl, rfl, rfl, rfl, .inl ⟨rfl, rfl⟩⟩
    · exact .refl s

theorem fotaUpdCancel_settles (s : Ctrl) : Settles s (fotaUpdCancel s) := by
  unfold fotaUpdCancel
  split
  · exact ⟨rfl, rfl, rfl, rfl, .inr ⟨nofun, nofun⟩⟩
  · split
    · exact ⟨rfl, rfl, rfl, rfl, .inl ⟨rfl, rfl⟩⟩
    · exact .refl s

theorem fotaDldPercent_settles (now : Nat) (s : Ctrl) : Settles s (fotaDldPercent now s).2 := by
  unfold fotaDldPercent
  split
  · dsimp only
    split
    · refine ⟨rfl, rfl, rfl, rfl, ?_⟩
      dsimp only
      split
      · exact .inr ⟨nofun, nofun⟩
      · exact .inl ⟨rfl, rfl⟩
    · split
      · refine ⟨rfl, rfl, rfl, rfl, ?_⟩
        dsimp only
        split
        · exact .inr ⟨nofun, nofun⟩
        · exact .inl ⟨rfl, rfl⟩
      · exact .refl s
  all_goals exact .refl s

theorem fotaUpdPercent_settles (s : Ctrl) : Settles s (fotaUpdPercent s).2 := by
  unfold fotaUpdPercent
  split
  · dsimp only
    split
    · refine ⟨rfl, rfl, rfl, rfl, ?_⟩
      dsimp only
      split
      · exact .inr ⟨nofun, nofun⟩
      · exact .inl ⟨rfl, rfl⟩
    · split
      · refine ⟨rfl, rfl, rfl, rfl, ?_⟩
        dsimp only
        split
        · exact .inr ⟨nofun, nofun⟩
        · exact .inl ⟨rfl, rfl⟩
      · exact .refl s
  all_goals exact .refl s

/-! ### Runs -/

/-- No step takes the job away from a request that it leaves downloading or upgrading. -/
theorem ctrlStep_owned {s t : Ctrl} {a : CtrlAct} (owned : s.Owned) (delivered : Delivered s a)
    (step : ctrlStep s a = some t) : t.Owned := by
  cases a with
  | newRequest url test now => cases step; exact fotaNewRequest_owned url test now owned
  | dldStart => cases step; exact fotaDldStart_owned owned
  | dldCancel => cases step; exact (fotaDldCancel_settles s).owned owned
  | dldPercent now => cases step; exact (fotaDldPercent_settles now s).owned owned
  | updStart sent => cases step; exact fotaUpdStart_owned sent owned
  | updCancel => cases step; exact (fotaUpdCancel_settles s).owned owned
  | updPercent => cases step; exact (fotaUpdPercent_settles s).owned owned
  | silent | testmode | pm | updLoad => cases step; exact ⟨owned.download, owned.upgrade⟩
  | dldReceived sent percent =>
    obtain ⟨_, eq⟩ := Option.ite_none_right_eq_some.mp step
    cases eq
    exact fotaDldCb_owned sent _ _ owned
  | dldReport sent res =>
    obtain ⟨⟨_, last⟩, eq⟩ := Option.ite_none_right_eq_some.mp step
    cases eq
    exact ⟨fun h => absurd h (fotaDldCb_ends sent 0 last), (fotaDldCb_owned sent res 0 owned).upgrade⟩
  | dldExit =>
    obtain ⟨reported, eq⟩ := Option.ite_none_right_eq_some.mp step
    cases eq
    refine ⟨fun h started => ?_, owned.upgrade⟩
    have running := owned.download h started
    rw [reported] at running
    cases running
  | updTake =>
    obtain ⟨_, eq⟩ := Option.ite_none_right_eq_some.mp step
    split at eq
    · rename_i asleep
      cases eq
      obtain ⟨download, ends⟩ := fotaUpdCb_last .error 0 { s with queued := s.queued - 1 } nofun
        (delivered asleep) owned.download
      exact ⟨download, fun h => absurd h ends⟩
    · cases eq
      exact ⟨owned.download, fun _ _ => .inr (.inl rfl)⟩
  | updProgress percent =>
    obtain ⟨_, eq⟩ := Option.ite_none_right_eq_some.mp step
    cases eq
    exact (fotaUpdCb_settles .process percent s).owned owned
  | updReport res =>
    obtain ⟨_, eq⟩ := Option.ite_none_right_eq_some.mp step
    dsimp only at eq
    split at eq
    · rename_i flag
      cases eq
      refine ⟨owned.download, fun h => ?_⟩
      -- The suppressed event is not one of an upgrade that is going on.
      have := (delivered h).2
      rw [flag] at this
      cases this
    · cases eq
      have last : (if res ≠ 0 then JobEvent.error else .finish) ≠ .process := by
        split <;> exact nofun
      obtain ⟨download, ends⟩ := fotaUpdCb_last _ 0 { s with upd := .reported } last
        (fun h => (delivered h).1) owned.download
      exact ⟨download, fun h => absurd h ends⟩
  | updExit =>
    obtain ⟨reported, eq⟩ := Option.ite_none_right_eq_some.mp step
    cases eq
    refine ⟨owned.download, fun h started => ?_⟩
    have alive := owned.upgrade h started
    simpa [reported] using alive
  | selfState =>
    cases step
    exact ⟨nofun, fun _ _ => .inr (.inr (Nat.succ_pos _))⟩
  | selfReport =>
    obtain ⟨_, eq⟩ := Option.ite_none_right_eq_some.mp step
    cases eq
    obtain ⟨download, ends⟩ := fotaUpdCb_last .finish 0 { s with selfReports := s.selfReports - 1 }
      nofun delivered owned.download
    exact ⟨download, fun h => absurd h ends⟩

/-- A request that is neither downloading nor upgrading gives way to a new one, at the
latest after its ten seconds. -/
theorem aged_not_busy {req : FotaReq} (download : req.state ≠ .download)
    (upgrade : req.state ≠ .upgrade) {now : Nat} (later : now - req.time > 10000) :
    (req.aged now).busy = false := by
  unfold FotaReq.aged FotaReq.busy
  cases h : req.state <;> simp_all

/-- In a run whose upgrades give their last events, and give them with no cancel request
pending, a request is downloading or upgrading only as long as the job it started has yet to
give its last event; after that a new request is accepted. -/
theorem control_never_stuck {s : Ctrl}
    (h : Runs.Reach (· = Ctrl.initial)
      (Runs.Guarded Delivered fun s a t => ctrlStep s a = some t) s) :
    (s.started = true → s.http ≠ .running → s.req.state ≠ .download) ∧
    (s.started = true → s.queued = 0 → s.upd ≠ .running → s.selfReports = 0 →
      s.req.state ≠ .upgrade) ∧
    (s.req.state ≠ .download → s.req.state ≠ .upgrade →
      ∀ now, now - s.req.time > 10000 → (s.req.aged now).busy = false) := by
  have owned : s.Owned := by
    apply h.invariant
    · rintro s rfl
      exact ⟨nofun, nofun⟩
    · exact fun s a t owned ⟨delivered, step⟩ => ctrlStep_owned owned delivered step
  refine ⟨?_, ?_, fun download upgrade now => aged_not_busy download upgrade⟩
  · exact fun started ended state => ended (owned.download state started)
  · intro started queued upd selfReports state
    rcases owned.upgrade state started with alive | alive | alive
    · omega
    · exact upd alive
    · omega

instance (s : Ctrl) (a : CtrlAct) : Decidable (Delivered s a) :=
  match a with
  | .updReport _ => inferInstanceAs (Decidable (_ → _ ∧ _))
  | .updTake => inferInstanceAs (Decidable (_ → _ → _))
  | .selfReport => inferInstanceAs (Decidable (_ → _))
  | .newRequest .. | .dldStart | .dldCancel | .dldPercent _ | .updStart _ | .updCancel
  | .updPercent | .silent _ | .testmode _ | .dldReceived .. | .dldReport .. | .dldExit | .pm _
  | .updLoad _ | .updProgress _ | .updExit | .selfState => inferInstanceAs (Decidable True)

/-- A download and an upgrade of which every event is given. -/
def upgradeRun : List CtrlAct :=
  [.newRequest [0x68] 0 0, .dldStart, .dldReceived true 100, .dldReport true .error, .dldExit,
    .updStart true, .updTake, .updProgress 50, .updReport 0, .updExit]

theorem control_free_after_upgrade :
    ∃ s, upgradeRun.foldlM ctrlStep Ctrl.initial = some s ∧
      s.started = true ∧ s.req.state ≠ .download ∧ s.req.state ≠ .upgrade := by
  refine ⟨_, rfl, rfl, ?_⟩
  have begun : Runs.Reach (· = Ctrl.initial)
      (Runs.Guarded Delivered fun s a t => ctrlStep s a = some t) Ctrl.initial :=
    Runs.Reach.start rfl
  have free := control_never_stuck (begun.run_checked upgradeRun rfl)
  exact ⟨free.1 rfl nofun, free.2.1 rfl rfl nofun rfl⟩

/-- A download and an upgrade whose job has begun. -/
def upgradeBegun : List CtrlAct :=
  [.newRequest [0x68] 0 0, .dldStart, .dldReceived true 100, .dldReport true .error, .dldExit,
    .updStart true, .updTake]

/-- What leaves the request upgrading with no job. -/
def UpgradeLeft (lost : List CtrlAct) : Prop :=
  ∃ s, (upgradeBegun ++ lost).foldlM ctrlStep Ctrl.initial = some s ∧
    s.req.state = .upgrade ∧ s.started = true ∧
    s.http = .idle ∧ s.queued = 0 ∧ s.upd = .idle ∧ s.selfReports = 0

/-- The T-Box is in the package, so that its error is not reported; or a cancel request comes
after the last progress. -/
theorem upgrade_left_behind :
    UpgradeLeft [.updLoad true, .updReport (-1), .updExit] ∧
    UpgradeLeft [.updProgress 100, .updCancel, .updReport 0, .updExit] := by
  constructor
  · exact ⟨_, rfl, by decide⟩
  · exact ⟨_, rfl, by decide⟩

end Fota
