import TBoxMpu.Foton.Setup
import TBoxMpu.Lib.Runs
import Mathlib.Data.List.Infix
import Mathlib.Logic.Relation

/-!
# Bounds of the server's commands

The query, setup and control commands of `foton_prot.c`: what their handlers look at of a
command and write to their buffers.

## Main result

`ft_commands_bounded`: a handler keeps within the command and its buffers exactly if the
command meets `CommandFits`.
-/

namespace Foton

open Checked

/-- The configuration that the handlers answer from. -/
structure FtConf where
  vin : List UInt8
  url : List UInt8
  port : Nat
  datintv : Nat
  timeout : Nat
  regintv : Nat
  tboxVer : List UInt8
  vin_length : vin.length = 17
  url_length : url.length ≤ 255
  tboxVer_length : tboxVer.length = 5

def PROT_QUREY : UInt8 := 0x80
def PROT_SETUP : UInt8 := 0x81
def PROT_CONTRL : UInt8 := 0x82

def ftPackHead (conf : FtConf) (type dir : UInt8) : List UInt8 :=
  [0x23, 0x23, type, dir] ++ conf.vin ++ [0x01]

def ftChecksum (bytes : List UInt8) : UInt8 :=
  bytes.foldl (· ^^^ ·) 0

def ftSeal (sdata : List UInt8) : List UInt8 :=
  sdata ++ [ftChecksum (sdata.drop 2)]

def bytesOf (n : Nat) : List UInt8 :=
  [UInt8.ofNat (n / 256), UInt8.ofNat n]

/-- The answer to a setup or control command. -/
def ftAnswer (conf : FtConf) (type ack : UInt8) (data : Nat → UInt8) : List UInt8 :=
  ftSeal (ftPackHead conf type ack ++ bytesOf 6 ++ stretch data 0 6)

/-! ### The query command -/

/-- `COM_HW_VER`. -/
def comHwVer : List UInt8 := [0x49, 0x4e, 0x50, 0x30, 0x31]

/-- What is answered to one parameter; a parameter that is not known is dropped. -/
def ftQueryItem (conf : FtConf) : UInt8 → Option (List UInt8)
  | 0x01 | 0x03 => some (bytesOf 1000)
  | 0x02 => some (bytesOf conf.datintv)
  | 0x04 => some [UInt8.ofNat conf.url.length]
  | 0x05 => some conf.url
  | 0x06 => some (bytesOf conf.port)
  | 0x07 => some comHwVer
  | 0x08 => some conf.tboxVer
  | 0x09 => some [0xff]
  | 0x0a => some [0, 10]
  | 0x0b => some (bytesOf conf.timeout)
  | 0x0c => some [UInt8.ofNat conf.regintv]
  | 0x0f => some [0, 0]
  | 0x0d | 0x10 => some [0]
  | 0x80 => some conf.vin
  | _ => none

/-- The items of the answer and `outcnt`. -/
def ftQueryItems (conf : FtConf) : List UInt8 → List UInt8 × Nat
  | [] => ([], 0)
  | para :: rest =>
    let (items, outcnt) := ftQueryItems conf rest
    match ftQueryItem conf para with
    | some bytes => (para :: bytes ++ items, outcnt + 1)
    | none => (items, outcnt)

/-- The answer of `ft_handle_query`, all that is written to `sdata`, and how many bytes of the
command are looked at. -/
structure QueryResult where
  sdata : List UInt8
  looks : Nat

def ftHandleQuery (conf : FtConf) (data : Nat → UInt8) (len : Nat) : QueryResult :=
  if len < 7 then ⟨[], 0⟩
  else
    let head := ftPackHead conf PROT_QUREY 0x01
    let cnt := (data 6).toNat
    if cnt = 0 ∨ 252 < cnt ∨ cnt ≠ len - 7 then
      ⟨ftSeal (head ++ bytesOf 7 ++ stretch data 0 6 ++ [0xff]), 7⟩
    else
      let (items, outcnt) := ftQueryItems conf (stretch data 7 cnt)
      ⟨ftSeal (head ++ bytesOf (7 + items.length) ++ stretch data 0 6 ++
        UInt8.ofNat outcnt :: items), 7 + cnt⟩

/-! ### The control command -/

inductive FtUpgType
  | unknown
  | pkg
  | fw
  deriving DecidableEq

/-- The part of the protocol's state that belongs to an upgrade. -/
structure FtUpgrade where
  ftptrans : Bool
  upgtype : FtUpgType
  ftpuptime : Nat
  deriving DecidableEq

def strstr (url sub : List UInt8) : Bool :=
  decide (sub <:+: url)

def ftUpgType (url : List UInt8) : FtUpgType :=
  if strstr url [0x2e, 0x70, 0x6b, 0x67] || strstr url [0x2e, 0x50, 0x4b, 0x47] then .pkg
  else if strstr url [0x2e, 0x7a, 0x69, 0x70] then .fw
  else .unknown

/-- An upgrade command at the time `now`; `requested` tells that `ftp_request` returns 0. Also
returned: whether the download is accepted. -/
def ftUpgradeCommand (st : FtUpgrade) (now : Nat) (url : List UInt8) (requested : Bool) :
    FtUpgrade × Bool :=
  let late := decide (st.ftpuptime + 10000 ≤ now)
  let upgtype := ftUpgType url
  let ftptrans := (st.ftptrans && !late) || decide (upgtype = .unknown)
  if ftptrans || !requested then ({ st with ftptrans, upgtype }, false)
  else (⟨true, upgtype, now⟩, true)

/-- `while (*tmp != ';') tmp++;` from `data + 7` on: where it stops, if that is inside. -/
def ftSemicolon (data : Nat → UInt8) (len : Nat) : Option Nat :=
  (List.range' 7 (len - 7)).find? fun i => data i = 0x3b

structure ControlResult where
  state : FtUpgrade
  accepted : Bool
  reload : Bool
  sdata : List UInt8

/-- `ft_handle_control`; `none` where the scan for the semicolon leaves the command. -/
def ftHandleControl (conf : FtConf) (st : FtUpgrade) (now : Nat) (requested : Bool)
    (data : Nat → UInt8) (len : Nat) : Option ControlResult :=
  if len < 7 then some ⟨st, false, false, []⟩
  else if data 6 = 0x01 then
    (ftSemicolon data len).map fun stop =>
      let url := cString (stretch data 7 (stop - 7))
      let (st, accepted) := ftUpgradeCommand st now url requested
      ⟨st, accepted, true, ftAnswer conf PROT_CONTRL (if accepted then 0x01 else 0x02) data⟩
  else some ⟨st, false, false, ftAnswer conf PROT_CONTRL 0x02 data⟩

/-! ### Lengths -/

theorem ftPackHead_length (conf : FtConf) (type dir : UInt8) :
    (ftPackHead conf type dir).length = 22 := by
  simp [ftPackHead, conf.vin_length]

theorem ftSeal_length (sdata : List UInt8) : (ftSeal sdata).length = sdata.length + 1 := by
  simp [ftSeal]

theorem ftAnswer_length (conf : FtConf) (type ack : UInt8) (data : Nat → UInt8) :
    (ftAnswer conf type ack data).length = 31 := by
  simp [ftAnswer, ftSeal_length, ftPackHead_length, bytesOf]

/-- The bytes that one parameter takes in the answer. -/
def querySize (conf : FtConf) (para : UInt8) : Nat :=
  match ftQueryItem conf para with
  | some bytes => bytes.length + 1
  | none => 0

theorem ftQueryItems_length (conf : FtConf) (paras : List UInt8) :
    (ftQueryItems conf paras).1.length = (paras.map (querySize conf)).sum := by
  induction paras with
  | nil => rfl
  | cons para rest ih =>
    rw [ftQueryItems, List.map_cons, List.sum_cons, ← ih, querySize]
    cases ftQueryItem conf para with
    | none => simp
    | some bytes =>
      simp
      omega

/-! ### The places of the setup loops -/

/-- How many bytes the check looks at from `*data` on. -/
def ftCheckLooks : SetupId → Nat
  | .reportPeriod | .serverTimeout => 3
  | .addrLength | .hbeatPeriod | .reloginPeriod | .commonAddrLength => 2
  | _ => 1

/-- The places that the loop of `ft_check_setup` stands at. -/
def ftCheckPlaces (data : Nat → UInt8) (len : Nat) : Nat → Nat → CheckLens → List Nat
  | 0, _, _ => []
  | cnt + 1, pos, lens =>
    if pos < len then
      pos :: match ftCheckItem data pos lens with
        | none => []
        | some (dlen, lens) => ftCheckPlaces data len cnt (pos + dlen) lens
    else []

/-- The loops of a setup command look at nothing behind it, write at most 256 bytes of `tmpstr`
and come to an end. -/
def SetupBounded (data : Nat → UInt8) (len : Nat) (stack : List UInt8) : Prop :=
  len < 7 ∨ (∀ pos ∈ ftCheckPlaces data len (data 6).toNat 7 ⟨256, 256⟩,
      pos + ftCheckLooks (setupId (data pos)) ≤ len) ∧
    ∃ rounds, (ftHandleSetup data len stack).rounds = some rounds ∧
      ∀ round ∈ rounds, round.1 + round.2.looks ≤ len ∧ round.2.writes ≤ 256

inductive FtCommand
  | query
  | setup
  | control

/-- The handler looks at nothing behind the `len` bytes of the command and writes no more than
its buffers hold. -/
def CommandBounded (conf : FtConf) (data : Nat → UInt8) (len : Nat) : FtCommand → Prop
  | .query => (ftHandleQuery conf data len).looks ≤ len ∧
      (ftHandleQuery conf data len).sdata.length ≤ 1024
  | .setup => ∀ stack, SetupBounded data len stack ∧
      (ftAnswer conf PROT_SETUP (ftHandleSetup data len stack).ack data).length ≤ 64
  | .control => ∀ st now requested, ∃ result,
      ftHandleControl conf st now requested data len = some result ∧ result.sdata.length ≤ 64

/-! ### When a command fits -/

/-- A place of the check: how many items are to come, the position, and the lengths read. -/
structure CheckPlace where
  cnt : Nat
  pos : Nat
  lens : CheckLens

def CheckNext (data : Nat → UInt8) (len : Nat) (a b : CheckPlace) : Prop :=
  a.pos < len ∧ a.cnt = b.cnt + 1 ∧
    ∃ dlen, ftCheckItem data a.pos a.lens = some (dlen, b.lens) ∧ b.pos = a.pos + dlen

/-- No item that the check meets is cut short in the bytes that it looks at. -/
def CheckUncut (data : Nat → UInt8) (len : Nat) (start : CheckPlace) : Prop :=
  ∀ b, Relation.ReflTransGen (CheckNext data len) start b → 0 < b.cnt → b.pos < len →
    b.pos + ftCheckLooks (setupId (data b.pos)) ≤ len

/-- The lengths that the handler goes by. -/
structure ItemLens where
  clen : Nat
  urllen : Nat
  curllen : Nat
  gburllen : Nat

/-- The handler's table of lengths; `byte` is the one behind the identifier. An address is as long
as the item before it. -/
def ItemLens.next (lens : ItemLens) (byte : Nat) : SetupId → ItemLens
  | .storagePeriod | .warningPeriod | .terminalTimeout | .commonPort | .reportPeriod | .port
  | .serverTimeout | .gbPort => { lens with clen := 3 }
  | .hbeatPeriod | .reloginPeriod | .reserved | .gbSwitch => { lens with clen := 2 }
  | .addrLength => { lens with clen := 2, urllen := byte }
  | .commonAddrLength => { lens with clen := 2, curllen := byte }
  | .gbAddrLength => { lens with clen := 2, gburllen := byte }
  | .commonAddr => { lens with clen := lens.curllen + 1 }
  | .gbAddr => { lens with clen := lens.gburllen + 1 }
  | .vin => { lens with clen := 18 }
  | .addr | .unknown => lens

def ItemLens.looks (lens : ItemLens) : SetupId → Nat
  | .reportPeriod | .port | .serverTimeout | .gbPort => 3
  | .addrLength | .reloginPeriod | .commonAddrLength | .gbSwitch | .gbAddrLength => 2
  | .addr => lens.urllen + 1
  | .vin => 18
  | .gbAddr => lens.gburllen + 1
  | _ => 1

def HandlerNext (data : Nat → UInt8) (len : Nat) (a b : Nat × ItemLens) : Prop :=
  a.1 < len ∧ b.2 = a.2.next (data (a.1 + 1)).toNat (setupId (data a.1)) ∧
    b.1 = a.1 + b.2.clen

/-- No item that the handler's table meets is cut short in the bytes that are looked at. -/
def HandlerUncut (data : Nat → UInt8) (len : Nat) (start : Nat × ItemLens) : Prop :=
  ∀ b, Relation.ReflTransGen (HandlerNext data len) start b → b.1 < len →
    b.1 + b.2.looks (setupId (data b.1)) ≤ len

/-- The items that a query asks for take at most 992 bytes, an upgrade command has its semicolon,
and no item of a setup command is cut short, neither where the check steps by its lengths nor, if
it passes, where the handler steps by its own. -/
def CommandFits (conf : FtConf) (data : Nat → UInt8) (len : Nat) : FtCommand → Prop
  | .query => 1 ≤ (data 6).toNat → (data 6).toNat ≤ 252 → (data 6).toNat + 7 = len →
      ((stretch data 7 (data 6).toNat).map (querySize conf)).sum ≤ 992
  | .setup => 7 ≤ len → CheckUncut data len ⟨(data 6).toNat, 7, ⟨256, 256⟩⟩ ∧
      ((ftCheckSetup data len).isSome → HandlerUncut data len (7, ⟨0, 0, 0, 0⟩))
  | .control => 7 ≤ len → data 6 = 0x01 → ∃ i, 7 ≤ i ∧ i < len ∧ data i = 0x3b

theorem query_bounded_iff (conf : FtConf) (data : Nat → UInt8) (len : Nat) :
    CommandBounded conf data len .query ↔ CommandFits conf data len .query := by
  simp only [CommandBounded, CommandFits, ftHandleQuery]
  by_cases short : len < 7
  · simp only [if_pos short, List.length_nil]
    omega
  · by_cases bad : (data 6).toNat = 0 ∨ 252 < (data 6).toNat ∨ (data 6).toNat ≠ len - 7
    · simp only [if_neg short, if_pos bad, ftSeal_length, List.length_append,
        ftPackHead_length, stretch_length, bytesOf, List.length_cons, List.length_nil]
      omega
    · simp only [if_neg short, if_neg bad, ftSeal_length, List.length_append,
        ftPackHead_length, stretch_length, bytesOf, List.length_cons, List.length_nil,
        ftQueryItems_length]
      omega

theorem ftSemicolon_isSome {data : Nat → UInt8} {len : Nat} :
    (∃ i, ftSemicolon data len = some i) ↔ ∃ i, 7 ≤ i ∧ i < len ∧ data i = 0x3b := by
  rw [← Option.isSome_iff_exists, ftSemicolon, List.find?_isSome]
  simp only [List.mem_range'_1, decide_eq_true_eq]
  constructor
  · rintro ⟨i, ⟨low, high⟩, stop⟩
    exact ⟨i, low, by omega, stop⟩
  · rintro ⟨i, low, high, stop⟩
    exact ⟨i, ⟨low, by omega⟩, stop⟩

theorem control_bounded_iff (conf : FtConf) (data : Nat → UInt8) (len : Nat) :
    CommandBounded conf data len .control ↔ CommandFits conf data len .control := by
  simp only [CommandBounded, CommandFits, ftHandleControl, ← ftSemicolon_isSome]
  split_ifs with short upgrade
  · exact iff_of_true (fun st _ _ => ⟨_, rfl, Nat.zero_le 64⟩) (by omega)
  · constructor
    · intro bounded _ _
      obtain ⟨result, run, -⟩ := bounded ⟨false, .unknown, 0⟩ 0 false
      obtain ⟨stop, found, -⟩ := Option.map_eq_some_iff.mp run
      exact ⟨stop, found⟩
    · intro fits st now requested
      obtain ⟨stop, found⟩ := fits (by omega) upgrade
      refine ⟨_, by rw [found]; rfl, ?_⟩
      rw [ftAnswer_length]
      omega
  · exact iff_of_true (fun st _ _ => ⟨_, rfl, by rw [ftAnswer_length]; omega⟩)
      (fun _ other => absurd other upgrade)

/-! ### The setup command -/

/-- The check goes on at one place only. -/
theorem checkNext_iff {data : Nat → UInt8} {len cnt pos dlen : Nat} {lens lens' : CheckLens}
    (inside : pos < len) (checked : ftCheckItem data pos lens = some (dlen, lens'))
    (c : CheckPlace) :
    CheckNext data len ⟨cnt + 1, pos, lens⟩ c ↔ c = ⟨cnt, pos + dlen, lens'⟩ := by
  constructor
  · rintro ⟨-, one_less, dlen', passed, moved⟩
    obtain ⟨rfl, same⟩ := Prod.mk.inj (Option.some.inj (checked.symm.trans passed))
    obtain ⟨cnt', pos', lens''⟩ := c
    obtain rfl : lens' = lens'' := same
    obtain rfl : pos' = pos + dlen := moved
    obtain rfl : cnt = cnt' := Nat.succ.inj one_less
    rfl
  · rintro rfl
    exact ⟨inside, rfl, dlen, checked, rfl⟩

theorem check_places_iff {data : Nat → UInt8} {len cnt pos : Nat} {lens : CheckLens} :
    (∀ p ∈ ftCheckPlaces data len cnt pos lens, p + ftCheckLooks (setupId (data p)) ≤ len) ↔
      CheckUncut data len ⟨cnt, pos, lens⟩ := by
  induction cnt generalizing pos lens with
  | zero =>
    rw [CheckUncut, Runs.forall_of_stop fun c step => absurd step.2.1 (Nat.succ_ne_zero _).symm]
    simp [ftCheckPlaces]
  | succ cnt ih =>
    by_cases inside : pos < len
    · rw [ftCheckPlaces, if_pos inside, List.forall_mem_cons]
      cases checked : ftCheckItem data pos lens with
      | none =>
        have stop : ∀ c, ¬ CheckNext data len ⟨cnt + 1, pos, lens⟩ c := by
          rintro c ⟨-, -, dlen, passed, -⟩
          exact nomatch checked.symm.trans passed
        rw [CheckUncut, Runs.forall_of_stop stop]
        simp [inside]
      | some next =>
        rw [ih, CheckUncut, CheckUncut, Runs.forall_of_next (checkNext_iff inside checked)]
        simp [inside]
    · rw [CheckUncut, Runs.forall_of_stop fun c step => absurd step.1 inside]
      simp [ftCheckPlaces, inside]

def SetupVars.lens (v : SetupVars) : ItemLens :=
  ⟨v.clen, v.urllen, v.curllen, v.gburllen⟩

theorem ftHandleItem_lens (data : Nat → UInt8) (pos : Nat) (v : SetupVars) :
    (ftHandleItem data pos v).vars.lens =
      v.lens.next (data (pos + 1)).toNat (setupId (data pos)) := by
  unfold ftHandleItem
  cases setupId (data pos) <;> rfl

theorem ftHandleItem_looks (data : Nat → UInt8) (pos : Nat) (v : SetupVars) :
    (ftHandleItem data pos v).looks = v.lens.looks (setupId (data pos)) := by
  unfold ftHandleItem
  cases setupId (data pos) <;> rfl

theorem ftHandleItem_writes {data : Nat → UInt8} {pos : Nat} {v : SetupVars}
    (short : v.urllen ≤ 255) : (ftHandleItem data pos v).writes ≤ 256 ∧
      (ftHandleItem data pos v).vars.urllen ≤ 255 := by
  have byte := (data (pos + 1)).toNat_lt
  unfold ftHandleItem
  cases setupId (data pos) <;> simp only <;> omega

theorem handlerNext_iff {data : Nat → UInt8} {len pos : Nat} {v : SetupVars} (inside : pos < len)
    (c : Nat × ItemLens) : HandlerNext data len (pos, v.lens) c ↔
      c = (pos + (ftHandleItem data pos v).vars.clen, (ftHandleItem data pos v).vars.lens) := by
  rw [ftHandleItem_lens, Prod.ext_iff]
  constructor
  · rintro ⟨-, same, moved⟩
    rw [same, ← ftHandleItem_lens] at moved
    exact ⟨moved, same⟩
  · rintro ⟨moved, same⟩
    refine ⟨inside, same, ?_⟩
    rw [same, ← ftHandleItem_lens]
    exact moved

theorem handler_places_iff {data : Nat → UInt8} {len rounds pos : Nat} {v : SetupVars}
    {rs : List (Nat × SetupRound)} (ends : ftHandleLoop data len rounds pos v = some rs)
    (short : v.urllen ≤ 255) :
    (∀ round ∈ rs, round.1 + round.2.looks ≤ len ∧ round.2.writes ≤ 256) ↔
      HandlerUncut data len (pos, v.lens) := by
  induction rounds generalizing pos v rs with
  | zero =>
    rw [ftHandleLoop] at ends
    split_ifs at ends with inside
    obtain rfl := Option.some.inj ends
    rw [HandlerUncut, Runs.forall_of_stop fun c step => absurd step.1 inside]
    simp [inside]
  | succ rounds ih =>
    rw [ftHandleLoop] at ends
    split_ifs at ends with inside
    · obtain ⟨rest, tail, rfl⟩ := Option.map_eq_some_iff.mp ends
      obtain ⟨writes, short'⟩ := @ftHandleItem_writes data pos v short
      rw [List.forall_mem_cons, ih tail short', HandlerUncut, HandlerUncut,
        Runs.forall_of_next (handlerNext_iff inside), ftHandleItem_looks]
      simp [inside, writes]
    · obtain rfl := Option.some.inj ends
      rw [HandlerUncut, Runs.forall_of_stop fun c step => absurd step.1 inside]
      simp [inside]

theorem setup_bounded_iff (conf : FtConf) (data : Nat → UInt8) (len : Nat) :
    CommandBounded conf data len .setup ↔ CommandFits conf data len .setup := by
  have answer : ∀ stack,
      (ftAnswer conf PROT_SETUP (ftHandleSetup data len stack).ack data).length ≤ 64 := by
    intro stack
    rw [ftAnswer_length]
    omega
  simp only [CommandBounded, CommandFits, answer, and_true]
  by_cases short : len < 7
  · exact iff_of_true (fun stack => .inl short) (by omega)
  · simp only [SetupBounded, short, false_or, check_places_iff, Nat.not_lt.mp short,
      true_implies, forall_and_left, ftHandleSetup, if_false]
    refine and_congr_right fun _ => ?_
    cases checked : ftCheckSetup data len with
    | none => exact iff_of_true (fun _ => ⟨[], rfl, by simp⟩) (by simp)
    | some items =>
      have place : ∀ stack rs,
          ftHandleLoop data len len 7 ⟨0, 0, 0, stack, 0, 0⟩ = some rs →
          ((∀ round ∈ rs, round.1 + round.2.looks ≤ len ∧ round.2.writes ≤ 256) ↔
            HandlerUncut data len (7, ⟨0, 0, 0, 0⟩)) :=
        fun stack rs ends => handler_places_iff ends (Nat.zero_le 255)
      constructor
      · intro bounded _
        obtain ⟨rs, ends, inside⟩ := bounded []
        exact (place [] rs ends).mp inside
      · intro uncut stack
        obtain ⟨rs, ends⟩ := @ftHandleLoop_accepted data len _ ⟨0, 0, 0, stack, 0, 0⟩ items
          (Nat.not_lt.mp short) checked
        exact ⟨rs, ends, (place stack rs ends).mpr (uncut rfl)⟩

/-- **Bounds of the commands.** -/
theorem ft_commands_bounded (conf : FtConf) (data : Nat → UInt8) (len : Nat) (cmd : FtCommand) :
    CommandBounded conf data len cmd ↔ CommandFits conf data len cmd := by
  cases cmd with
  | query => exact query_bounded_iff conf data len
  | setup => exact setup_bounded_iff conf data len
  | control => exact control_bounded_iff conf data len

def ftSomeConf : FtConf where
  vin := List.replicate 17 0x30
  url := []
  port := 0
  datintv := 10
  timeout := 30
  regintv := 30
  tboxVer := List.replicate 5 0x30
  vin_length := rfl
  url_length := Nat.zero_le 255
  tboxVer_length := rfl

/-- A query that asks for the VIN 56 times. -/
def vinQuery : Nat → UInt8 := fun i => if i = 6 then 56 else 0x80

/-- Its answer of 1040 bytes does not fit the buffer of 1024. -/
theorem vin_query_overflows : ¬ ∀ (conf : FtConf) (data : Nat → UInt8) (len : Nat)
    (cmd : FtCommand), CommandBounded conf data len cmd := by
  intro claim
  have fits := (query_bounded_iff ftSomeConf vinQuery 63).mp (claim _ _ _ .query)
  exact absurd (fits (by decide) (by decide) (by decide)) (by decide)

end Foton
