import TBoxMpu.Foton.Task

/-!
# The wake-up timer during a download

## Main result

`ft_wakeup_during_download`: over a whole run, no wake-up timer expiry allows logout or sleep
while an upgrade download runs, exactly if each of these expiries comes while the last CAN
message was that CAN is on or the last KL15 value read was not 0.

## Proof strategy

The expiry looks at `ft_ftp_evt` of its own iteration, which is always `FTP_FINISH` there, and
so only at `state.can` and `onvalue` (`ftWakeupTimeout_allows`). No part of the protocol changes
these two (`ftProtocol_inputs`), so that they are read off the messages of the run.
-/

namespace Foton

/-- The last CAN message; CAN is off at first. -/
def lastCan (its : List FtIter) : Bool :=
  its.foldl (fun can it => match it.msg with
    | .canOn => true
    | .canOff => false
    | _ => can) false

/-- The KL15 value read last; it is read at each expiry and stays where reading fails. -/
def lastKl15 (onvalue : UInt8) (its : List FtIter) : UInt8 :=
  its.foldl (fun onvalue it => match it.msg with
    | .wakeupTimeout => it.kl15.getD onvalue
    | _ => onvalue) onvalue

/-- The expiries of a run while a download is accepted and not ended: what was handled before,
and the iteration of the expiry. -/
def ExpiryIn (s : FtTask) (its before : List FtIter) (it : FtIter) : Prop :=
  before ++ [it] <+: its ∧ it.msg = .wakeupTimeout ∧ (ftMain s before).downloads ≠ []

/-! ### What the protocol leaves alone -/

/-- A part leaves the inputs of the expiry as they were. -/
def KeepsInputs (part : FtTask → FtTask × Bool) : Prop :=
  ∀ s, (part s).1.can = s.can ∧ (part s).1.onvalue = s.onvalue

theorem ftDoChecksock_inputs (it : FtIter) : KeepsInputs (ftDoChecksock it) := by
  intro s
  unfold ftDoChecksock
  split_ifs <;> exact ⟨rfl, rfl⟩

theorem ftHandlePacket_inputs (now : Nat) (packet : FtPacket) :
    KeepsInputs fun s => ftHandlePacket now s packet := by
  intro s
  cases packet with
  | login ack =>
    simp only [ftHandlePacket]
    split_ifs <;> exact ⟨rfl, rfl⟩
  | upgrade url requested sent =>
    simp only [ftHandlePacket]
    split_ifs <;> exact ⟨rfl, rfl⟩
  | unknown => exact ⟨rfl, rfl⟩
  | _ =>
    simp only [ftHandlePacket]
    split_ifs <;> exact ⟨rfl, rfl⟩

theorem ftHandlePackets_inputs (now : Nat) (packets : List FtPacket) :
    KeepsInputs fun s => ftHandlePackets now s packets := by
  induction packets with
  | nil => exact fun s => ⟨rfl, rfl⟩
  | cons packet packets ih =>
    intro s
    obtain ⟨can, onvalue⟩ := ftHandlePacket_inputs now packet s
    simp only [ftHandlePackets]
    split_ifs
    · obtain ⟨can', onvalue'⟩ := ih (ftHandlePacket now s packet).1
      exact ⟨can'.trans can, onvalue'.trans onvalue⟩
    · exact ⟨can, onvalue⟩

theorem ftDoReceive_inputs (it : FtIter) : KeepsInputs (ftDoReceive it) := by
  intro s
  unfold ftDoReceive
  cases it.received with
  | none => exact ⟨rfl, rfl⟩
  | some packets => exact ftHandlePackets_inputs it.now packets s

theorem ftDoWait_inputs (it : FtIter) : KeepsInputs (ftDoWait it) := by
  intro s
  simp only [ftDoWait]
  split_ifs <;> exact ⟨rfl, rfl⟩

theorem ftDoLogin_inputs (it : FtIter) : KeepsInputs (ftDoLogin it) := by
  intro s
  simp only [ftDoLogin]
  split_ifs <;> exact ⟨rfl, rfl⟩

theorem ftDoSuspend_inputs (it : FtIter) : KeepsInputs (ftDoSuspend it) := by
  intro s
  unfold ftDoSuspend
  split_ifs <;> exact ⟨rfl, rfl⟩

theorem ftDoReport_inputs (it : FtIter) : KeepsInputs (ftDoReport it) := by
  intro s
  unfold ftDoReport
  split_ifs <;> exact ⟨rfl, rfl⟩

theorem ftDoHbeat_inputs (it : FtIter) : KeepsInputs (ftDoHbeat it) := by
  intro s
  unfold ftDoHbeat
  split_ifs <;> exact ⟨rfl, rfl⟩

theorem ftDoLogout_inputs (it : FtIter) : KeepsInputs (ftDoLogout it) := by
  intro s
  unfold ftDoLogout
  split_ifs <;> exact ⟨rfl, rfl⟩

/-- Parts run in turn leave alone what each of them does. -/
theorem parts_inputs {it : FtIter} {parts : List (FtIter → FtTask → FtTask × Bool)}
    (each : ∀ part ∈ parts, KeepsInputs (part it)) (s : FtTask × Bool) :
    (parts.foldl (fun (s, more) part => if more then part it s else (s, more)) s).1.can =
        s.1.can ∧
      (parts.foldl (fun (s, more) part => if more then part it s else (s, more)) s).1.onvalue =
        s.1.onvalue := by
  induction parts generalizing s with
  | nil => exact ⟨rfl, rfl⟩
  | cons part parts ih =>
    obtain ⟨s, more⟩ := s
    rw [List.foldl_cons]
    have rest := fun t => ih (fun other mem => each other (List.mem_cons_of_mem part mem)) t
    cases more with
    | false => exact rest (s, false)
    | true =>
      obtain ⟨can, onvalue⟩ := each part List.mem_cons_self s
      exact ⟨(rest (part it s)).1.trans can, (rest (part it s)).2.trans onvalue⟩

theorem ftProtocol_inputs (it : FtIter) (s : FtTask) :
    (ftProtocol it s).can = s.can ∧ (ftProtocol it s).onvalue = s.onvalue := by
  refine parts_inputs ?_ (s, true)
  simp only [List.forall_mem_cons]
  exact ⟨ftDoChecksock_inputs it, ftDoReceive_inputs it, ftDoWait_inputs it,
    ftDoLogin_inputs it, ftDoSuspend_inputs it, ftDoReport_inputs it, ftDoHbeat_inputs it,
    ftDoLogout_inputs it, by simp⟩

/-! ### The inputs over a run -/

theorem ftHandleMsg_inputs (s : FtTask) (it : FtIter) :
    ((ftHandleMsg s it).1.can = match it.msg with
      | .canOn => true
      | .canOff => false
      | _ => s.can) ∧
    ((ftHandleMsg s it).1.onvalue = match it.msg with
      | .wakeupTimeout => it.kl15.getD s.onvalue
      | _ => s.onvalue) := by
  cases msg : it.msg with
  | ftp request evt => cases evt <;> simp [ftHandleMsg, msg, FtTask.reloadWakeup]
  | wakeupTimeout =>
    simp only [ftHandleMsg, msg, ftWakeupTimeout, FtTask.reloadWakeup]
    split_ifs <;> exact ⟨rfl, rfl⟩
  | _ =>
    simp only [ftHandleMsg, msg, FtTask.reloadWakeup, FtTask.reset, and_self]
    try split_ifs <;> exact ⟨rfl, rfl⟩

theorem ftIterate_inputs (s : FtTask) (it : FtIter) :
    ((ftIterate s it).1.can = match it.msg with
      | .canOn => true
      | .canOff => false
      | _ => s.can) ∧
    ((ftIterate s it).1.onvalue = match it.msg with
      | .wakeupTimeout => it.kl15.getD s.onvalue
      | _ => s.onvalue) := by
  simp only [ftIterate, (ftProtocol_inputs it _).1, (ftProtocol_inputs it _).2]
  cases it.canThread
  · exact ftHandleMsg_inputs s it
  · exact ftHandleMsg_inputs { s with allowSleep := false } it

theorem ftMain_append (s : FtTask) (its : List FtIter) (it : FtIter) :
    ftMain s (its ++ [it]) = (ftIterate (ftMain s its) it).1 := by
  rw [ftMain, List.foldl_append]
  rfl

theorem ftMain_can (onvalue : UInt8) (its : List FtIter) :
    (ftMain (ftTaskStart onvalue) its).can = lastCan its := by
  induction its using List.reverseRecOn with
  | nil => rfl
  | append_singleton its it ih =>
    rw [ftMain_append, (ftIterate_inputs _ it).1, ih]
    simp only [lastCan, List.foldl_append, List.foldl_cons, List.foldl_nil]

theorem ftMain_onvalue (onvalue : UInt8) (its : List FtIter) :
    (ftMain (ftTaskStart onvalue) its).onvalue = lastKl15 onvalue its := by
  induction its using List.reverseRecOn with
  | nil => rfl
  | append_singleton its it ih =>
    rw [ftMain_append, (ftIterate_inputs _ it).2, ih]
    simp only [lastKl15, List.foldl_append, List.foldl_cons, List.foldl_nil]

/-! ### The expiry -/

/-- No FTP event is left from another iteration: only CAN and KL15 keep an expiry from allowing
something. -/
theorem ftWakeupTimeout_allows {s : FtTask} {it : FtIter} (expiry : it.msg = .wakeupTimeout) :
    (ftWakeupTimeout s it).2 = none ↔ s.can = true ∨ it.kl15.getD s.onvalue ≠ 0 := by
  have evt : ftFtpEvt it.msg = .finish := by rw [expiry]; rfl
  simp only [ftWakeupTimeout, evt, true_or, true_and]
  by_cases quiet : it.kl15.getD s.onvalue = 0 ∧ s.can = false
  · rw [if_pos quiet]
    split_ifs <;> simp [quiet]
  · rw [if_neg quiet]
    refine iff_of_true rfl ?_
    by_cases on : s.can = true
    · exact .inl on
    · exact .inr fun off => quiet ⟨off, Bool.eq_false_iff.mpr on⟩

/-- What an expiry allows is what it sets; otherwise sleep stays refused and the timer runs. -/
theorem ftWakeupTimeout_sets (s : FtTask) (it : FtIter) :
    match (ftWakeupTimeout s it).2 with
    | some .logout => (ftWakeupTimeout s it).1.isAllowLogin = false
    | some .sleep => (ftWakeupTimeout s it).1.allowSleep = true
    | none => (ftWakeupTimeout s it).1.allowSleep = false ∧
        (ftWakeupTimeout s it).1.isAllowLogin = s.isAllowLogin ∧
        (ftWakeupTimeout s it).1.wakeupTimer = true := by
  simp only [ftWakeupTimeout]
  split_ifs
  · rfl
  · rfl
  · exact ⟨rfl, rfl, rfl⟩

theorem expiry_allows {s : FtTask} {it : FtIter} (expiry : it.msg = .wakeupTimeout) :
    (ftIterate s it).2 = none ↔ s.can = true ∨ it.kl15.getD s.onvalue ≠ 0 := by
  simp only [ftIterate, ftHandleMsg, expiry]
  cases it.canThread <;> exact ftWakeupTimeout_allows expiry

theorem lastKl15_expiry {it : FtIter} (expiry : it.msg = .wakeupTimeout) (onvalue : UInt8)
    (its : List FtIter) : lastKl15 onvalue (its ++ [it]) =
      it.kl15.getD (lastKl15 onvalue its) := by
  simp only [lastKl15, List.foldl_append, List.foldl_cons, List.foldl_nil, expiry]

/-- **No sleep during a download.** -/
theorem ft_wakeup_during_download (onvalue : UInt8) (its : List FtIter) :
    (∀ before it, ExpiryIn (ftTaskStart onvalue) its before it →
        (ftIterate (ftMain (ftTaskStart onvalue) before) it).2 = none) ↔
      ∀ before it, ExpiryIn (ftTaskStart onvalue) its before it →
        lastCan before = true ∨ lastKl15 onvalue (before ++ [it]) ≠ 0 := by
  refine forall₃_congr fun before it expiry => ?_
  rw [expiry_allows expiry.2.1, ftMain_can, ftMain_onvalue, lastKl15_expiry expiry.2.1]

/-- An iteration with an open socket on which `packets` arrive. -/
def ftIterOf (msg : FtMsg) (kl15 : Option UInt8) (packets : List FtPacket) : FtIter where
  msg := msg
  now := 20000
  kl15 := kl15
  canThread := false
  addrSet := true
  sock := .opened
  sockError := false
  received := some packets
  serverTimeout := 30000
  loginIntv := 30000
  hbeatIntv := 30000
  noSending := true
  hasReport := false
  sent := fun _ => 1

/-- The network is there and the server sends the upgrade command for `a.pkg`. -/
def ftUpgradeIter : FtIter :=
  ftIterOf (.network 1) none [.upgrade [0x61, 0x2e, 0x70, 0x6b, 0x67] true 1]

/-- The download has just begun when the timer expires with KL15 and CAN off. -/
theorem sleep_during_download : ¬ ∀ (onvalue : UInt8) (its : List FtIter) before it,
    ExpiryIn (ftTaskStart onvalue) its before it →
      (ftIterate (ftMain (ftTaskStart onvalue) before) it).2 = none := by
  intro claim
  have allowed := claim 0 [ftUpgradeIter, ftIterOf .wakeupTimeout (some 0) []] [ftUpgradeIter]
    (ftIterOf .wakeupTimeout (some 0) []) ⟨List.prefix_rfl, rfl, by decide⟩
  exact absurd allowed (by decide)

end Foton
