import TBoxMpu.Fota.Core
import TBoxMpu.Lib.Effects

/-!
# What talking to an ECU can change

`Along R p`: every run of `p` returns and moves the world along `R`. The functions that only
send requests keep every preorder that a single request moves along, those for the ports every
preorder that a message to the CAN thread and an opened client move along.
-/

namespace Fota

open Effects

variable {σ α β : Type} {env : Env σ} {i : Nat} {R : World σ → World σ → Prop}

def Along (R : World σ → World σ → Prop) (p : Job σ α) : Prop :=
  Within R (fun _ _ => False) p

structure Frame (R : World σ → World σ → Prop) : Prop where
  refl : ∀ w, R w w
  trans : ∀ {u v w}, R u v → R v w → R u w

theorem Along.pure (frame : Frame R) (a : α) : Along R (pure a : Job σ α) :=
  Within.pure frame.refl a

theorem Along.bind (frame : Frame R) {p : Job σ α} {f : α → Job σ β} (first : Along R p)
    (rest : ∀ a, Along R (f a)) : Along R (p >>= f) :=
  Within.bind (R := R) (fun _ _ _ => frame.trans) (fun _ _ _ _ stopped => stopped) first rest

theorem Along.ite {c : Prop} [Decidable c] {p q : Job σ α} (yes : c → Along R p)
    (no : ¬c → Along R q) : Along R (if c then p else q) :=
  Within.ite yes no

theorem Along.get (frame : Frame R) : Along R (get : Job σ (World σ)) :=
  fun w => frame.refl w

/-! ### Requests -/

/-- Requests move along `R`, and marking the ECU `i` as erased. -/
structure UdsFrame (env : Env σ) (i : Nat) (R : World σ → World σ → Prop) : Prop
    extends Frame R where
  request : ∀ (w : World σ) (bc : Bool) (sid : Nat) (sub : Int) (data : List UInt8) (timeout : Nat),
    R w { w with
      trace := w.trace ++ [.request bc sid sub data]
      env := (env.udsRequest bc sid sub data timeout w.env).2 }
  counter : ∀ (w : World σ) (n : Nat), R w { w with blkCnt := n }
  erase : Along R (markErase i)

section

variable (frame : UdsFrame env i R)

include frame

theorem fotaUdsRequest_along {bc : Bool} {sid : Nat} {sub : Int} {data : List UInt8}
    {timeout : Nat} : Along R (fotaUdsRequest env bc sid sub data timeout) := by
  apply Along.bind frame.toFrame (Along.get frame.toFrame)
  intro w
  apply Along.ite
  · exact fun _ => Along.pure frame.toFrame _
  · intro _
    apply Along.ite
    · exact fun _ => Along.pure frame.toFrame _
    · exact fun _ w => frame.request w bc sid sub data timeout

theorem fotaUdsResult_along {siz : Nat} : Along R (fotaUdsResult env siz) :=
  Along.bind frame.toFrame (Along.get frame.toFrame) fun _ => Along.pure frame.toFrame _

theorem fotaUdsReqDownload_along {base size : UInt32} :
    Along R (fotaUdsReqDownload env base size) := by
  apply Along.bind frame.toFrame (fotaUdsRequest_along frame)
  intro res
  apply Along.ite
  · exact fun _ => Along.pure frame.toFrame _
  · intro _
    apply Along.bind frame.toFrame (fotaUdsResult_along frame)
    intro data
    cases data with
    | none => exact Along.pure frame.toFrame _
    | some data =>
      apply Along.bind frame.toFrame
      · exact fun w => frame.counter w 0
      · exact fun _ => Along.pure frame.toFrame _

theorem fotaUdsTransData_along {data : List UInt8} : Along R (fotaUdsTransData env data) := by
  apply Along.ite
  · exact fun _ => Along.pure frame.toFrame _
  · intro _
    apply Along.bind frame.toFrame
    · exact fun w => frame.counter w (w.blkCnt + 1)
    · intro _
      apply Along.bind frame.toFrame (Along.get frame.toFrame)
      exact fun _ => fotaUdsRequest_along frame

theorem fotonRoutine_along {id : UInt8 × UInt8} {par : List UInt8} {timeout : Nat} :
    Along R (fotonRoutine env id par timeout) := by
  apply Along.bind frame.toFrame (fotaUdsRequest_along frame)
  intro res
  apply Along.ite
  · exact fun _ => Along.pure frame.toFrame _
  · intro _
    apply Along.bind frame.toFrame (fotaUdsResult_along frame)
    exact fun _ => Along.pure frame.toFrame _

/-- The checks and the erase request: a number made of what a routine answered. -/
theorem routine_along {id : UInt8 × UInt8} {par : List UInt8} {timeout : Nat} (r : Bool → Int) :
    Along R (do pure (r (← fotonRoutine env id par timeout))) :=
  Along.bind frame.toFrame (fotonRoutine_along frame) fun _ => Along.pure frame.toFrame _

theorem fotonReadId_along {id : UInt8 × UInt8} {size : Nat} :
    Along R (fotonReadId env id size) := by
  apply Along.bind frame.toFrame (fotaUdsRequest_along frame)
  intro res
  apply Along.ite
  · exact fun _ => Along.pure frame.toFrame _
  · intro _
    apply Along.bind frame.toFrame (fotaUdsResult_along frame)
    intro data
    split <;> exact Along.pure frame.toFrame _

theorem fotaEcuMatch_along (ecu : FotaEcu) : Along R (fotaEcuMatch env ecu) := by
  apply Along.bind frame.toFrame (fotonReadId_along frame)
  intro ver
  split
  · exact Along.pure frame.toFrame _
  · exact Along.pure frame.toFrame _
  · apply Along.ite (fun _ => Along.pure frame.toFrame _)
    intro _
    apply Along.bind frame.toFrame (fotonReadId_along frame)
    intro ver
    split <;> exact Along.pure frame.toFrame _

theorem fotaErase_along (sects : List ImgSect) : Along R (fotaErase env i sects) := by
  induction sects with
  | nil => exact Along.pure frame.toFrame _
  | cons sect rest ih =>
    apply Along.bind frame.toFrame frame.erase
    intro _
    apply Along.bind frame.toFrame (routine_along frame fun ok => if ok then 0 else -1)
    intro res
    -- a failed erase ends the loop, with its mark set
    exact Along.ite (fun _ => Along.pure frame.toFrame _) (fun _ => ih)

theorem anyFails_along (ps : List (Job σ Int)) (each : ∀ p ∈ ps, Along R p) :
    Along R (anyFails ps) := by
  induction ps with
  | nil => exact Along.pure frame.toFrame _
  | cons p rest ih =>
    apply Along.bind frame.toFrame (each p List.mem_cons_self)
    intro res
    apply Along.ite (fun _ => Along.pure frame.toFrame _)
    exact fun _ => ih fun q mem => each q (List.mem_cons_of_mem p mem)

theorem fotaUpgradePrepare_along : Along R (fotaUpgradePrepare env) := by
  apply anyFails_along frame
  simp only [List.forall_mem_cons, List.not_mem_nil, false_imp_iff, implies_true, and_true]
  exact ⟨fotaUdsRequest_along frame, routine_along frame fun ok => if ok then 0 else 1,
    fotaUdsRequest_along frame, fotaUdsRequest_along frame⟩

theorem fotaUpgradeFinish_along : Along R (fotaUpgradeFinish env) := by
  apply anyFails_along frame
  simp only [List.forall_mem_cons, List.not_mem_nil, false_imp_iff, implies_true, and_true]
  exact ⟨fotaUdsRequest_along frame, fotaUdsRequest_along frame, fotaUdsRequest_along frame,
    fotaUdsRequest_along frame, fotaUdsRequest_along frame, fotaUdsRequest_along frame⟩

end

/-! ### Ports and the client -/

structure PortFrame (env : Env σ) (i : Nat) (R : World σ → World σ → Prop) : Prop
    extends Frame R where
  told : ∀ (port : Int) (baud : Int16) (res : Int), Along R (emit (.setBaud i port baud res))
  message : ∀ (port : Int) (baud : Int16), Along R (call (env.tcomSendMsg port baud))
  ask : ∀ port fid rid pid : Int, Along R (call (env.udsOpen port fid rid pid))
  rate : ∀ (w : World σ) (canBaud : Int → Int16), R w { w with canBaud := canBaud }
  client : ∀ (w : World σ) (udsOpen : Bool), R w { w with udsOpen := udsOpen }

section

variable (frame : PortFrame env i R)

include frame

theorem canSetBaud_along {port : Int} {baud : Int16} : Along R (canSetBaud env i port baud) := by
  apply Along.ite
  · exact fun _ => Along.bind frame.toFrame (frame.told _ _ _) fun _ => Along.pure frame.toFrame _
  · intro _
    apply Along.bind frame.toFrame (frame.message _ _)
    intro res
    apply Along.ite
    · exact fun _ => Along.bind frame.toFrame (frame.told _ _ _) fun _ => Along.pure frame.toFrame _
    · intro _
      apply Along.bind frame.toFrame (frame.told _ _ _)
      intro _
      apply Along.bind frame.toFrame
      · exact fun w => frame.rate w _
      · exact fun _ => Along.pure frame.toFrame _

theorem fotaUdsOpen_along {port fid rid pid : Int} :
    Along R (fotaUdsOpen env port fid rid pid) := by
  apply Along.bind frame.toFrame (Along.get frame.toFrame)
  intro w
  apply Along.ite (fun _ => Along.pure frame.toFrame _)
  intro _
  apply Along.bind frame.toFrame (frame.ask _ _ _ _)
  intro res
  cases res with
  | failed => exact Along.pure frame.toFrame _
  | opened =>
    apply Along.bind frame.toFrame
    · exact fun w => frame.client w true
    · exact fun _ => Along.pure frame.toFrame _
  | expired => exact Along.pure frame.toFrame _

theorem fotaUdsClose_along : Along R (fotaUdsClose : Job σ Unit) :=
  fun w => frame.client w false

theorem fotaEnter_along {bus : BusInf} {info : EcuInf} : Along R (fotaEnter env i bus info) := by
  apply Along.bind frame.toFrame
  · exact Along.bind frame.toFrame (Along.get frame.toFrame) fun _ => Along.pure frame.toFrame _
  intro baud
  have rest : ∀ set : Int, Along R (if set ≠ 0 then pure none
      else do
        if (← fotaUdsOpen env (bus.port - 1) bus.fid info.rid info.pid) ≠ 0 then
          let _ ← canSetBaud env i (bus.port - 1) baud
          pure none
        else pure (some baud)) := by
    intro set
    apply Along.ite (fun _ => Along.pure frame.toFrame _)
    intro _
    apply Along.bind frame.toFrame (fotaUdsOpen_along frame)
    intro res
    apply Along.ite
    · intro _
      apply Along.bind frame.toFrame (canSetBaud_along frame)
      exact fun _ => Along.pure frame.toFrame _
    · exact fun _ => Along.pure frame.toFrame _
  apply Along.ite
  · exact fun _ => Along.bind frame.toFrame (canSetBaud_along frame) rest
  · exact fun _ => Along.bind frame.toFrame (Along.pure frame.toFrame _) rest

theorem fotaLeave_along {bus : BusInf} {baud : Int16} :
    Along R (fotaLeave env i bus baud) := by
  apply Along.bind frame.toFrame (fotaUdsClose_along frame)
  intro _
  apply Along.bind frame.toFrame (canSetBaud_along frame)
  exact fun _ => Along.pure frame.toFrame _

end

end Fota
