import Mathlib.Data.UInt
import TBoxMpu.Lib.Checked

/-!
# The setup command

`ft_check_setup` and `ft_handle_setup` of `foton_prot.c`. Both walk over the items that follow
the time and the count of a command, each with its own table of item lengths.

## Main result

`ft_setup_applies`: a rejected command changes no setting; for an accepted one the handler
comes to an end, and it takes the items one by one as they were checked and applies what each
lists exactly if they meet `SetupAgrees`.

## Proof strategy

As long as the handler stands where the check stood, one round of the two is compared by cases
on the item (`item_agrees`). With the same length they stand together again, so that the traces
are the same exactly if each item agrees.
-/

namespace Foton

open Checked

inductive SetupId
  | storagePeriod
  | reportPeriod
  | warningPeriod
  | addrLength
  | addr
  | port
  | hbeatPeriod
  | terminalTimeout
  | serverTimeout
  | reloginPeriod
  | commonAddrLength
  | commonAddr
  | commonPort
  | reserved
  | vin
  | gbSwitch
  | gbAddrLength
  | gbAddr
  | gbPort
  | unknown
  deriving DecidableEq

def setupId : UInt8 → SetupId
  | 0x01 => .storagePeriod
  | 0x02 => .reportPeriod
  | 0x03 => .warningPeriod
  | 0x04 => .addrLength
  | 0x05 => .addr
  | 0x06 => .port
  | 0x09 => .hbeatPeriod
  | 0x0a => .terminalTimeout
  | 0x0b => .serverTimeout
  | 0x0c => .reloginPeriod
  | 0x0d => .commonAddrLength
  | 0x0e => .commonAddr
  | 0x0f => .commonPort
  | 0x10 => .reserved
  | 0x80 => .vin
  | 0x8b => .gbSwitch
  | 0x8c => .gbAddrLength
  | 0x8d => .gbAddr
  | 0x8e => .gbPort
  | _ => .unknown

/-- A number of two bytes, the high one first. -/
def word (data : Nat → UInt8) (pos : Nat) : Nat :=
  (data pos).toNat * 256 + (data (pos + 1)).toNat

/-- An item of a command as the check sees it: its length and the bytes behind its identifier. -/
structure SetupItem where
  id : SetupId
  len : Nat
  body : List UInt8

/-! ### The check -/

structure CheckLens where
  urllen : Nat
  curllen : Nat

/-- One round of `ft_check_setup` at `pos`: `dlen`, and the lengths kept for later items. -/
def ftCheckItem (data : Nat → UInt8) (pos : Nat) (lens : CheckLens) : Option (Nat × CheckLens) :=
  match setupId (data pos) with
  | .storagePeriod | .warningPeriod | .port | .commonPort | .terminalTimeout => some (3, lens)
  | .reportPeriod | .serverTimeout =>
    if word data (pos + 1) < 1 ∨ 600 < word data (pos + 1) then none else some (3, lens)
  | .addrLength => some (2, { lens with urllen := (data (pos + 1)).toNat })
  | .addr => if 255 < lens.urllen then none else some (lens.urllen + 1, lens)
  | .hbeatPeriod | .reloginPeriod =>
    if data (pos + 1) < 1 ∨ 240 < data (pos + 1) then none else some (2, lens)
  | .commonAddrLength => some (2, { lens with curllen := (data (pos + 1)).toNat })
  | .commonAddr => if 255 < lens.curllen then none else some (lens.curllen + 1, lens)
  | .reserved | .vin => some (18, lens)
  | .gbSwitch | .gbAddrLength | .gbAddr | .gbPort | .unknown => none

def ftCheckLoop (data : Nat → UInt8) (len : Nat) :
    Nat → Nat → CheckLens → Option (List SetupItem)
  | 0, pos, _ => if pos = len then some [] else none
  | cnt + 1, pos, lens =>
    if pos < len then
      match ftCheckItem data pos lens with
      | none => none
      | some (dlen, lens) =>
        (ftCheckLoop data len cnt (pos + dlen) lens).map
          (⟨setupId (data pos), dlen, stretch data (pos + 1) (dlen - 1)⟩ :: ·)
    else none

/-- `ft_check_setup` for a command of `len` bytes, whose first six are the time: the items where
it returns 0. -/
def ftCheckSetup (data : Nat → UInt8) (len : Nat) : Option (List SetupItem) :=
  ftCheckLoop data len (data 6).toNat 7 ⟨256, 256⟩

/-! ### The handler -/

/-- What the handler has set. No call sets a server address or its port alone. -/
inductive FtSetting
  | datintv (period : Nat)
  | timeout (timeout : Nat)
  | regintv (period : Nat)
  | url (url : List UInt8)
  | port (port : Nat)
  | addr (url : List UInt8) (port : Nat)
  | vin (vin : List UInt8)
  | gbAddr (url : List UInt8) (port : Nat)
  deriving DecidableEq

def ftSetAddr (url : List UInt8) (port : Nat) : List FtSetting :=
  if 255 < url.length then [] else [.addr url port]

def ftSetVin (vin : List UInt8) : List FtSetting :=
  if vin.length ≠ 17 then [] else [.vin vin]

/-- The variables of the loop; `tmpstr` is what it holds as a string. -/
structure SetupVars where
  clen : Nat
  urllen : Nat
  curllen : Nat
  tmpstr : List UInt8
  gbswitch : UInt8
  gburllen : Nat

/-- One round: the item's length `clen`, the settings, how many bytes of `data` it looks at from
`*data` on and how many of `tmpstr` it writes. -/
structure SetupRound where
  vars : SetupVars
  settings : List FtSetting
  looks : Nat
  writes : Nat

def ftHandleItem (data : Nat → UInt8) (pos : Nat) (v : SetupVars) : SetupRound :=
  match setupId (data pos) with
  | .storagePeriod | .warningPeriod | .terminalTimeout | .commonPort =>
    ⟨{ v with clen := 3 }, [], 1, 0⟩
  | .reportPeriod =>
    ⟨{ v with clen := 3 },
      [.datintv ((data (pos + 1)).toNat * 0xff + (data (pos + 2)).toNat)], 3, 0⟩
  | .addrLength => ⟨{ v with clen := 2, urllen := (data (pos + 1)).toNat }, [], 2, 0⟩
  | .addr =>
    -- `clen` stays what it was for the item before
    ⟨{ v with tmpstr := cString (stretch data (pos + 1) v.urllen) }, [], v.urllen + 1,
      v.urllen + 1⟩
  | .port => ⟨{ v with clen := 3 }, ftSetAddr v.tmpstr (word data (pos + 1)), 3, 0⟩
  | .hbeatPeriod => ⟨{ v with clen := 2 }, [], 1, 0⟩
  | .serverTimeout =>
    ⟨{ v with clen := 3 },
      [.timeout ((data (pos + 1)).toNat * 0xff + (data (pos + 2)).toNat)], 3, 0⟩
  | .reloginPeriod => ⟨{ v with clen := 2 }, [.regintv (data (pos + 1)).toNat], 2, 0⟩
  | .commonAddrLength => ⟨{ v with clen := 2, curllen := (data (pos + 1)).toNat }, [], 2, 0⟩
  | .commonAddr => ⟨{ v with clen := v.curllen + 1 }, [], 1, 0⟩
  | .reserved => ⟨{ v with clen := 2 }, [], 1, 0⟩
  | .vin =>
    let tmpstr := cString (stretch data (pos + 1) 17)
    ⟨{ v with clen := 18, tmpstr }, ftSetVin tmpstr, 18, 18⟩
  | .gbSwitch => ⟨{ v with clen := 2, gbswitch := data (pos + 1) }, [], 2, 0⟩
  | .gbAddrLength => ⟨{ v with clen := 2, gburllen := (data (pos + 1)).toNat }, [], 2, 0⟩
  | .gbAddr =>
    ⟨{ v with clen := v.gburllen + 1, tmpstr := cString (stretch data (pos + 1) v.gburllen) }, [],
      v.gburllen + 1, 256⟩
  | .gbPort =>
    ⟨{ v with clen := 3 }, [if v.gbswitch ≠ 0 then .gbAddr v.tmpstr (word data (pos + 1))
      else .gbAddr [] 0], 3, 0⟩
  | .unknown => ⟨v, [], 1, 0⟩

/-- The rounds of the loop, each with the place it stood at; `none` if there are more than
`rounds` of them. -/
def ftHandleLoop (data : Nat → UInt8) (len : Nat) :
    Nat → Nat → SetupVars → Option (List (Nat × SetupRound))
  | 0, pos, _ => if pos < len then none else some []
  | rounds + 1, pos, v =>
    if pos < len then
      let round := ftHandleItem data pos v
      (ftHandleLoop data len rounds (pos + round.vars.clen) round.vars).map ((pos, round) :: ·)
    else some []

/-- What `ft_handle_setup` does with a command: the answer's `sdata[3]` and the rounds of the
loop. `stack` is the string that `tmpstr` happens to hold at first. -/
structure SetupResult where
  ack : UInt8
  rounds : Option (List (Nat × SetupRound))

def ftHandleSetup (data : Nat → UInt8) (len : Nat) (stack : List UInt8) : SetupResult :=
  if len < 7 then ⟨0x01, some []⟩
  else
    match ftCheckSetup data len with
    | none => ⟨0x02, some []⟩
    | some _ => ⟨0x01, ftHandleLoop data len len 7 ⟨0, 0, 0, stack, 0, 0⟩⟩

/-! ### What a command lists -/

/-- A port is listed before the next server address. -/
def portFollows : List SetupItem → Bool
  | [] => false
  | item :: rest =>
    if item.id = .port then true else if item.id = .addr then false else portFollows rest

def number (body : List UInt8) : Nat :=
  body.foldl (fun n b => n * 256 + b.toNat) 0

/-- The settings that an item lists. A port goes with the address listed before it; an address
without a port and a port without an address are settings of their own. -/
def itemSettings (last : Option (List UInt8)) (item : SetupItem) (rest : List SetupItem) :
    List FtSetting :=
  match item.id with
  | .reportPeriod => [.datintv (number item.body)]
  | .serverTimeout => [.timeout (number item.body)]
  | .reloginPeriod => [.regintv (number item.body)]
  | .addr => if portFollows rest then [] else [.url item.body]
  | .port =>
    match last with
    | some url => [.addr url (number item.body)]
    | none => [.port (number item.body)]
  | .vin => [.vin item.body]
  | _ => []

def lastAddr (last : Option (List UInt8)) (item : SetupItem) : Option (List UInt8) :=
  if item.id = .addr then some item.body else last

/-- Item by item the length and the settings listed. -/
def listed : Option (List UInt8) → List SetupItem → List (Nat × List FtSetting)
  | _, [] => []
  | last, item :: rest =>
    (item.len, itemSettings last item rest) :: listed (lastAddr last item) rest

/-- The same of the rounds of the handler. -/
def applied (rounds : List (Nat × SetupRound)) : List (Nat × List FtSetting) :=
  rounds.map fun round => (round.2.vars.clen, round.2.settings)

/-! ### When the handler agrees -/

/-- The string copied last, which a port is set with. -/
def heldAfter (held : List UInt8) (item : SetupItem) : List UInt8 :=
  if item.id = .addr ∨ item.id = .vin then cString item.body else held

/-- An item behind one of length `prev`: a period or timeout has the high byte 0, an address is as
long as the item before it and is followed by its port, a port meets the address listed last as
the string copied last, a VIN has no zero, and there is no reserved item. -/
def ItemAgrees (prev : Nat) (last : Option (List UInt8)) (held : List UInt8) (item : SetupItem)
    (rest : List SetupItem) : Prop :=
  match item.id with
  | .reportPeriod | .serverTimeout => item.body.head? = some 0
  | .addr => item.len = prev ∧ portFollows rest = true
  | .port => last = some held
  | .reserved => False
  | .vin => 0 ∉ item.body
  | _ => True

def SetupAgrees : Nat → Option (List UInt8) → List UInt8 → List SetupItem → Prop
  | _, _, _, [] => True
  | prev, last, held, item :: rest => ItemAgrees prev last held item rest ∧
      SetupAgrees item.len (lastAddr last item) (heldAfter held item) rest

/-! ### One item -/

/-- The lengths that the check has read are those of the handler. -/
structure Synced (lens : CheckLens) (v : SetupVars) : Prop where
  url : lens.urllen ≤ 255 → v.urllen = lens.urllen
  curl : lens.curllen ≤ 255 → v.curllen = lens.curllen

theorem number_stretch_two (data : Nat → UInt8) (pos : Nat) :
    number (stretch data pos 2) = word data pos := by
  simp [number, stretch, word, List.range_succ]

theorem head_stretch_two (data : Nat → UInt8) (pos : Nat) :
    (stretch data pos 2).head? = some (data pos) := by
  rw [stretch_succ]
  rfl

/-- `hi * 0xff + lo` is the number where the high byte is 0. -/
theorem ff_eq_word_iff (data : Nat → UInt8) (pos : Nat) :
    (data pos).toNat * 0xff + (data (pos + 1)).toNat = word data pos ↔ data pos = 0 := by
  rw [← UInt8.toNat_inj, word]
  simp only [UInt8.toNat_zero]
  omega

theorem ftSetAddr_eq_iff {last : Option (List UInt8)} {held : List UInt8} {port : Nat} :
    (last ≠ none → held.length ≤ 255) → ((ftSetAddr held port = match last with
      | some url => [FtSetting.addr url port]
      | none => [.port port]) ↔ last = some held) := by
  intro short
  unfold ftSetAddr
  cases last with
  | none => split_ifs <;> simp
  | some url =>
    rw [if_neg (Nat.not_lt.mpr (short (by simp)))]
    simp [eq_comm]

theorem ftSetVin_eq_iff {body : List UInt8} (size : body.length = 17) :
    ftSetVin (cString body) = [.vin body] ↔ 0 ∉ body := by
  rw [← cString_length_iff, size, ftSetVin]
  constructor
  · intro applied
    by_contra cut
    rw [if_pos cut] at applied
    cases applied
  · intro whole
    rw [if_neg (not_not.mpr whole)]
    exact congrArg (fun vin => [FtSetting.vin vin])
      ((List.takeWhile_prefix _).eq_of_length (whole.trans size.symm))

section

variable {data : Nat → UInt8} {pos dlen : Nat} {lens lens' : CheckLens} {v : SetupVars}
  {last : Option (List UInt8)}

/-- One round takes as many bytes as were checked and applies what is listed exactly if the item
agrees. -/
theorem item_agrees (checked : ftCheckItem data pos lens = some (dlen, lens'))
    (synced : Synced lens v) (short : last ≠ none → v.tmpstr.length ≤ 255)
    (rest : List SetupItem) :
    ((ftHandleItem data pos v).vars.clen = dlen ∧ (ftHandleItem data pos v).settings =
        itemSettings last ⟨setupId (data pos), dlen, stretch data (pos + 1) (dlen - 1)⟩ rest) ↔
      ItemAgrees v.clen last v.tmpstr
        ⟨setupId (data pos), dlen, stretch data (pos + 1) (dlen - 1)⟩ rest := by
  unfold ftCheckItem at checked
  unfold ftHandleItem itemSettings ItemAgrees
  cases kind : setupId (data pos) <;> simp only [kind, Option.ite_none_left_eq_some,
    Option.some.injEq, Prod.mk.injEq, reduceCtorEq] at checked ⊢
  case storagePeriod | warningPeriod | terminalTimeout | commonPort =>
    obtain ⟨rfl, rfl⟩ := checked
    simp
  case reportPeriod | serverTimeout =>
    obtain ⟨-, rfl, rfl⟩ := checked
    simp only [Nat.add_one_sub_one, number_stretch_two, head_stretch_two]
    simpa using ff_eq_word_iff data (pos + 1)
  case addrLength | commonAddrLength =>
    obtain ⟨rfl, rfl⟩ := checked
    simp
  case addr =>
    obtain ⟨-, rfl, rfl⟩ := checked
    cases portFollows rest <;> simp [eq_comm]
  case port =>
    obtain ⟨rfl, rfl⟩ := checked
    simp only [Nat.add_one_sub_one, number_stretch_two, true_and]
    exact ftSetAddr_eq_iff short
  case hbeatPeriod =>
    obtain ⟨-, rfl, rfl⟩ := checked
    simp
  case reloginPeriod =>
    obtain ⟨-, rfl, rfl⟩ := checked
    simp [number, stretch, List.range_succ]
  case commonAddr =>
    obtain ⟨long, rfl, rfl⟩ := checked
    simpa using synced.curl (by omega)
  case reserved =>
    obtain ⟨rfl, rfl⟩ := checked
    simp
  case vin =>
    obtain ⟨rfl, rfl⟩ := checked
    simp only [Nat.add_one_sub_one, true_and]
    exact ftSetVin_eq_iff (stretch_length data (pos + 1) 17)

/-- What holds of the lengths and the string copied goes on holding. -/
theorem item_keeps (checked : ftCheckItem data pos lens = some (dlen, lens'))
    (synced : Synced lens v) : Synced lens' (ftHandleItem data pos v).vars ∧
      (ftHandleItem data pos v).vars.tmpstr = heldAfter v.tmpstr
        ⟨setupId (data pos), dlen, stretch data (pos + 1) (dlen - 1)⟩ := by
  unfold ftCheckItem at checked
  unfold ftHandleItem heldAfter
  cases kind : setupId (data pos) <;> simp only [kind, Option.ite_none_left_eq_some,
    Option.some.injEq, Prod.mk.injEq, reduceCtorEq] at checked ⊢
  case reportPeriod | serverTimeout | hbeatPeriod | reloginPeriod =>
    obtain ⟨-, rfl, rfl⟩ := checked
    exact ⟨⟨synced.url, synced.curl⟩, by simp⟩
  case addrLength =>
    obtain ⟨rfl, rfl⟩ := checked
    exact ⟨⟨fun _ => rfl, synced.curl⟩, by simp⟩
  case commonAddrLength =>
    obtain ⟨rfl, rfl⟩ := checked
    exact ⟨⟨synced.url, fun _ => rfl⟩, by simp⟩
  case addr =>
    obtain ⟨long, rfl, rfl⟩ := checked
    exact ⟨⟨synced.url, synced.curl⟩, by simp [synced.url (by omega)]⟩
  case commonAddr =>
    obtain ⟨-, rfl, rfl⟩ := checked
    exact ⟨⟨synced.url, synced.curl⟩, by simp⟩
  all_goals
    obtain ⟨rfl, rfl⟩ := checked
    exact ⟨⟨synced.url, synced.curl⟩, by simp⟩

/-- Behind an address the string copied last is one of an item. -/
theorem heldAfter_length_le (checked : ftCheckItem data pos lens = some (dlen, lens'))
    {held : List UInt8} (short : last ≠ none → held.length ≤ 255)
    (some_addr : lastAddr last
      ⟨setupId (data pos), dlen, stretch data (pos + 1) (dlen - 1)⟩ ≠ none) :
    (heldAfter held ⟨setupId (data pos), dlen, stretch data (pos + 1) (dlen - 1)⟩).length
      ≤ 255 := by
  have body := cString_length_le (stretch data (pos + 1) (dlen - 1))
  rw [stretch_length] at body
  unfold lastAddr at some_addr
  unfold heldAfter
  unfold ftCheckItem at checked
  cases kind : setupId (data pos) <;> simp only [kind, Option.ite_none_left_eq_some,
    Option.some.injEq, Prod.mk.injEq] at checked some_addr ⊢
  case addr =>
    obtain ⟨long, rfl, rfl⟩ := checked
    simp only [true_or, if_true]
    omega
  case vin =>
    obtain ⟨rfl, rfl⟩ := checked
    simp only [or_true, if_true]
    omega
  all_goals exact short some_addr

end

/-! ### The loops -/

theorem clen_pos {data : Nat → UInt8} {pos : Nat} {v : SetupVars} (before : 1 ≤ v.clen) :
    1 ≤ (ftHandleItem data pos v).vars.clen := by
  unfold ftHandleItem
  cases setupId (data pos)
  case addr | unknown => exact before
  all_goals simp

/-- The first item that the check passes is none that keeps the length of the item before. -/
theorem first_clen_pos {data : Nat → UInt8} {pos : Nat} {v : SetupVars}
    {next : Nat × CheckLens} (checked : ftCheckItem data pos ⟨256, 256⟩ = some next) :
    1 ≤ (ftHandleItem data pos v).vars.clen := by
  unfold ftCheckItem at checked
  unfold ftHandleItem
  cases kind : setupId (data pos) <;> simp only [kind] at checked ⊢
  case addr => simp at checked
  case unknown => cases checked
  all_goals simp

theorem ftHandleLoop_ends {data : Nat → UInt8} {len rounds pos : Nat} {v : SetupVars}
    (before : 1 ≤ v.clen) (enough : len ≤ pos + rounds) :
    ∃ rs, ftHandleLoop data len rounds pos v = some rs := by
  induction rounds generalizing pos v with
  | zero => exact ⟨[], by rw [ftHandleLoop, if_neg (by omega)]⟩
  | succ rounds ih =>
    rw [ftHandleLoop]
    split_ifs with inside
    · have forward := @clen_pos data pos v before
      obtain ⟨rs, eq⟩ := ih forward
        (show len ≤ pos + (ftHandleItem data pos v).vars.clen + rounds by omega)
      exact ⟨_, Option.map_eq_some_iff.mpr ⟨rs, eq, rfl⟩⟩
    · exact ⟨[], rfl⟩

/-- The handler comes to an end on every accepted command. -/
theorem ftHandleLoop_accepted {data : Nat → UInt8} {len cnt : Nat} {v : SetupVars}
    {items : List SetupItem} (long : 7 ≤ len)
    (checked : ftCheckLoop data len cnt 7 ⟨256, 256⟩ = some items) :
    ∃ rs, ftHandleLoop data len len 7 v = some rs := by
  obtain ⟨rounds, rfl⟩ : ∃ rounds, len = rounds + 1 := ⟨len - 1, by omega⟩
  rw [ftHandleLoop]
  split_ifs with inside
  · cases cnt with
    | zero =>
      rw [ftCheckLoop, if_neg (by omega)] at checked
      cases checked
    | succ cnt =>
      rw [ftCheckLoop, if_pos inside] at checked
      cases first : ftCheckItem data 7 ⟨256, 256⟩ with
      | none =>
        rw [first] at checked
        cases checked
      | some next =>
        have forward := @first_clen_pos data 7 v next first
        obtain ⟨rs, eq⟩ := @ftHandleLoop_ends data (rounds + 1) rounds
          (7 + (ftHandleItem data 7 v).vars.clen) _ forward (by omega)
        exact ⟨_, Option.map_eq_some_iff.mpr ⟨rs, eq, rfl⟩⟩
  · exact ⟨[], rfl⟩

/-- From a place that both stand at, the handler goes as the check did exactly if every item
agrees. -/
theorem loop_agrees {data : Nat → UInt8} {len cnt rounds pos : Nat} {lens : CheckLens}
    {v : SetupVars} {last : Option (List UInt8)} {items : List SetupItem}
    {rs : List (Nat × SetupRound)} (checked : ftCheckLoop data len cnt pos lens = some items)
    (ends : ftHandleLoop data len rounds pos v = some rs) (synced : Synced lens v)
    (short : last ≠ none → v.tmpstr.length ≤ 255) :
    applied rs = listed last items ↔ SetupAgrees v.clen last v.tmpstr items := by
  induction cnt generalizing rounds pos lens v last items rs with
  | zero =>
    rw [ftCheckLoop] at checked
    split_ifs at checked with done
    obtain rfl := Option.some.inj checked
    have gone : rs = [] := by
      cases rounds <;> simpa [ftHandleLoop, done] using ends.symm
    subst gone
    exact iff_of_true rfl trivial
  | succ cnt ih =>
    rw [ftCheckLoop] at checked
    split_ifs at checked with inside
    cases one : ftCheckItem data pos lens with
    | none =>
      rw [one] at checked
      cases checked
    | some next =>
      obtain ⟨dlen, lens'⟩ := next
      rw [one] at checked
      obtain ⟨rest, tail, rfl⟩ := Option.map_eq_some_iff.mp checked
      cases rounds with
      | zero =>
        rw [ftHandleLoop, if_pos inside] at ends
        cases ends
      | succ rounds =>
        rw [ftHandleLoop, if_pos inside] at ends
        obtain ⟨rs, tail_rounds, rfl⟩ := Option.map_eq_some_iff.mp ends
        obtain ⟨synced', held⟩ := item_keeps one synced
        have agrees := item_agrees one synced short rest
        have short' : lastAddr last ⟨setupId (data pos), dlen,
            stretch data (pos + 1) (dlen - 1)⟩ ≠ none →
            (ftHandleItem data pos v).vars.tmpstr.length ≤ 255 := by
          intro some_addr
          rw [held]
          exact heldAfter_length_le one short some_addr
        rw [SetupAgrees, ← agrees, ← held]
        simp only [applied, listed, List.map_cons, List.cons.injEq, Prod.mk.injEq]
        refine and_congr_right fun same => ?_
        -- with the length that was checked both stand at the same place again
        rw [same.1] at tail_rounds
        have after := ih tail tail_rounds synced' short'
        rwa [same.1] at after

/-- The bytes of a command: the time, the count, and the items. -/
def setupCommand (cnt : UInt8) (items : List UInt8) : Nat → UInt8 := fun i =>
  ((List.replicate 6 0 ++ cnt :: items)[i]?).getD 0

end Foton
