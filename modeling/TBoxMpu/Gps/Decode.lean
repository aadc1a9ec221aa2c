import Mathlib.Data.UInt
import Mathlib.Data.Rat.Floor
import TBoxMpu.Lib.Runs
import TBoxMpu.Lib.Scanf

/-!
# Decoding sentences

`gps_decode.c`. What `sscanf` reads of an RMC or a GGA sentence is a parameter; its values of type
`double` are rational numbers, so no rounding is modelled. The receiver is the one of the 4G module.
-/

namespace Gps

/-! ### Sentences -/

/-- What is read of an RMC sentence. Where its direction is empty, `snap.direction` is whatever the
stack held. -/
structure Rmc where
  time : ℚ
  status : UInt8
  latitude : ℚ
  isNorth : UInt8
  longitude : ℚ
  isEast : UInt8
  knots : ℚ
  direction : ℚ
  date : Nat

structure Gga where
  fs : Nat
  state : Nat
  msl : ℚ

/-- The calls of `sscanf`, on a whole sentence. -/
structure Scan where
  rmc : List UInt8 → Option Rmc
  gga : List UInt8 → Option Gga

def hexDigit? (c : UInt8) : Option Nat :=
  if 48 ≤ c ∧ c ≤ 57 then some (c.toNat - 48)
  else if 65 ≤ c ∧ c ≤ 70 then some (c.toNat - 55)
  else if 97 ≤ c ∧ c ≤ 102 then some (c.toNat - 87)
  else none

/-- `sscanf` with `%02x`, of two characters into a variable that is 0. -/
def scanHex (a b : UInt8) : Nat :=
  if Scanf.isBlank a || a = 43 then (hexDigit? b).getD 0
  else if a = 45 then (2 ^ 32 - (hexDigit? b).getD 0) % 2 ^ 32
  else
    match hexDigit? a, hexDigit? b with
    | none, _ => 0
    | some high, none => high
    | some high, some low => 16 * high + low

inductive Checked
  | ok
  | invalidMsg
  | invalidCs
  deriving DecidableEq

/-- `gps_checksum`, of a string without its NUL. -/
def gpsChecksum (buf : List UInt8) : Checked :=
  if buf.take 6 = Scanf.chars "$INACC" then .ok
  else if buf.length < 9 ∨ buf.take 2 ≠ Scanf.chars "$G" ∨ buf[buf.length - 3]? ≠ some 42 then
    .invalidMsg
  else
    let cs := scanHex (buf.getD (buf.length - 2) 0) (buf.getD (buf.length - 1) 0)
    let datacs := ((buf.take (buf.length - 3)).drop 1).foldl (· ^^^ ·) 0
    if datacs.toNat ≠ cs % 256 then .invalidCs else .ok

/-! ### Time -/

/-- The days that `gps_utc2local` counts in a month; the year has two digits. -/
def monthLength (year month : Nat) : Nat :=
  match month with
  | 2 => if (year % 4 = 0 ∧ year % 100 ≠ 0) ∨ year % 400 = 0 then 29 else 28
  | 4 | 6 | 9 | 11 => 30
  | _ => 31

/-- `gps_utc2local`: `ddmmyy` and `hhmmss`. -/
def gpsUtc2local (date : Nat) (time : ℚ) : Nat × ℚ :=
  let year := date % 100
  let month := date % 10000 / 100
  let day := date / 10000
  let localTime := time + 80000
  if 240000 ≤ localTime then
    let mday := monthLength year month
    let day := day + 1
    let month := month + day / (mday + 1)
    let day := day % (mday + 1)
    let day := if day = 0 then 1 else day
    let (year, month) := if 13 ≤ month then (year + 1, 1) else (year, month)
    (day * 10000 + month * 100 + year, localTime - 240000)
  else (day * 10000 + month * 100 + year, localTime)

/-- `RTCTIME` without its milliseconds, which are 0. -/
structure RtcTime where
  year : Nat
  mon : Nat
  mday : Nat
  hour : Nat
  min : Nat
  sec : Nat
  deriving DecidableEq

/-- `(unsigned int)time` -/
def seconds (time : ℚ) : Nat := time.floor.toNat

/-- The time that the clock is set to. -/
def rtcTime (date : Nat) (time : ℚ) : RtcTime :=
  ⟨date % 100 + 2000, date / 100 % 100, date / 10000, seconds time / 10000,
    seconds time / 100 % 100, seconds time % 100⟩

/-! ### State -/

/-- `GPS_DATA` -/
structure GpsData where
  date : Nat
  time : ℚ
  longitude : ℚ
  isEast : Nat
  latitude : ℚ
  isNorth : Nat
  direction : ℚ
  knots : ℚ
  kms : ℚ
  stateUsed : Nat
  msl : ℚ
  deriving DecidableEq

def GpsData.zero : GpsData := ⟨0, 0, 0, 0, 0, 0, 0, 0, 0, 0, 0⟩

inductive FixStatus
  | unconnected
  | unfix
  | fix
  | error
  deriving DecidableEq

/-- What became of an RMC sentence, with the calls of `gps_dev_reset`, and the time-outs. -/
inductive Note
  | fixed (r : Rmc) (now : Nat)
  | lost (now : Nat) (reset : Bool)
  | silent (now : Nat)

/-- The variables of `gps_decode.c`, the fix status of `gps_dev.c`, the calls of `dev_syn_time`,
what `gps_decode_save` wrote, and what happened so far. `clock` is the last `tm_get_time`. -/
structure GpsState where
  snap : GpsData
  timeNotChange : Bool
  curDate : Nat
  lastSec : Nat
  moving : Nat
  rDistance : Int
  sDistance : Int
  llt : Nat
  fixStatus : FixStatus
  synced : List RtcTime
  saved : List Int
  clock : Nat
  notes : List Note

/-- `gps_decode_init`, with the distance that `rds_get` found. -/
def GpsState.init (distance : Int) : GpsState :=
  ⟨.zero, false, 0, 0xffff, 0, distance, distance, 0, .unconnected, [], [], 0, []⟩

/-! ### Decoding -/

/-- `gps_get_time_diff`: what it returns and `last_sec`. -/
def gpsGetTimeDiff (lastSec : Nat) (now : ℚ) : Nat × Nat :=
  let curSec := seconds now % 100
  let diff :=
    if lastSec = 0xffff then 1
    else if lastSec > curSec then (60 + curSec + 2 ^ 32 - lastSec) % 2 ^ 32
    else curSec - lastSec
  (if diff > 20 then 1 else diff, curSec)

/-- `gps_acc_distance` and, every sixtieth time, `gps_save_distance`. -/
def accDistance (s : GpsState) (knots : ℚ) (diff : Nat) : GpsState :=
  let moving := (s.moving + 1) % 60
  let rDistance := s.rDistance + (knots * 1852 * diff).floor
  if moving = 30 then
    { s with moving := moving, rDistance := rDistance, sDistance := rDistance,
             saved := s.saved ++ [rDistance] }
  else { s with moving := moving, rDistance := rDistance }

/-- `gps_update_snap_by_rmc`, which does not copy `kms`. -/
def updateSnapByRmc (snap data : GpsData) : GpsData :=
  { snap with date := data.date, time := data.time, latitude := data.latitude,
              isNorth := data.isNorth, longitude := data.longitude, isEast := data.isEast,
              knots := data.knots, direction := data.direction }

/-- `gps_update_snap_by_gga` -/
def updateSnapByGga (snap : GpsData) (stateUsed : Nat) (msl : ℚ) : GpsData :=
  { snap with stateUsed := stateUsed, msl := msl }

/-- The branch of `gps_decode_rmc` for a time that is new. -/
def takeFix (s : GpsState) (r : Rmc) (date : Nat) (time : ℚ) : GpsState :=
  let (diff, curSec) := gpsGetTimeDiff s.lastSec time
  let s := { s with lastSec := curSec }
  let data : GpsData :=
    ⟨date, time, r.longitude, if r.isEast = 69 then 1 else 0, r.latitude,
      if r.isNorth = 78 then 1 else 0, r.direction, r.knots, r.knots * 1852 / 1000, 0, 0⟩
  if 3000 / 1852 ≤ r.knots then
    let s := accDistance s r.knots diff
    { s with snap := updateSnapByRmc s.snap data }
  else
    { s with snap := updateSnapByRmc s.snap { data with knots := 0, kms := 0, direction := 0 } }

/-- `dev_syn_time` is called where the date is not that of the last call. -/
def synTime (s : GpsState) (date : Nat) (time : ℚ) : GpsState :=
  if s.curDate = date then s
  else { s with curDate := date, synced := s.synced ++ [rtcTime date time] }

/-- `gps_decode_rmc` where the data is valid. -/
def rmcFix (s : GpsState) (r : Rmc) : GpsState :=
  let (date, time) := gpsUtc2local r.date r.time
  let s := synTime s date time
  if time = s.snap.time then { s with timeNotChange := true } else takeFix s r date time

/-- `gps_decode_rmc`, and whether it returns 0. -/
def gpsDecodeRmc (scan : Scan) (s : GpsState) (buf : List UInt8) : GpsState × Option Rmc :=
  let s := { s with timeNotChange := false }
  match (scan.rmc buf).filter (·.status = 65) with
  | some r => (rmcFix s r, some r)
  | none => ({ s with snap := .zero }, none)

/-- `gps_decode_gga` -/
def gpsDecodeGga (scan : Scan) (s : GpsState) (buf : List UInt8) : GpsState :=
  if s.timeNotChange then s
  else
    match scan.gga buf with
    | some g => if g.fs ≠ 0 then { s with snap := updateSnapByGga s.snap g.state g.msl } else s
    | none => s

/-- `GPS_LOSS_LOCK_TIMEOUT` -/
def lossLockTimeout : Nat := 300000

/-- `gps_decode` behind an RMC sentence that brought no fix. `llt` is the time of the first one. -/
def lostFix (s : GpsState) (now : Nat) : GpsState :=
  let s := { s with fixStatus := .unfix }
  if s.llt = 0 then { s with llt := now, notes := s.notes ++ [.lost now false] }
  else if (now + 2 ^ 64 - s.llt) % 2 ^ 64 > lossLockTimeout then
    { s with llt := 0, notes := s.notes ++ [.lost now true] }
  else { s with notes := s.notes ++ [.lost now false] }

/-- `gps_decode` -/
def gpsDecode (scan : Scan) (s : GpsState) (buf : List UInt8) (now : Nat) : GpsState :=
  if gpsChecksum buf ≠ .ok then s
  else if buf.take 6 = Scanf.chars "$GPRMC" ∨ buf.take 6 = Scanf.chars "$GNRMC" then
    match gpsDecodeRmc scan s buf with
    | (s, some r) =>
      { s with fixStatus := .fix, llt := 0, notes := s.notes ++ [.fixed r now] }
    | (s, none) => lostFix s now
  else if buf.take 6 = Scanf.chars "$GPGGA" ∨ buf.take 6 = Scanf.chars "$GNGGA" then
    gpsDecodeGga scan s buf
  else s

/-- A sentence, or the message of the data timer. -/
inductive Event
  | sentence (buf : List UInt8)
  | dataTimer

/-- An event at a time of the clock, which does not go back. `gps_dev_timeout` resets the receiver
as well. -/
inductive Step (scan : Scan) : GpsState → Event × Nat → GpsState → Prop
  | sentence {s : GpsState} {buf : List UInt8} {now : Nat} : s.clock ≤ now → now < 2 ^ 64 →
      Step scan s (.sentence buf, now) { gpsDecode scan s buf now with clock := now }
  | dataTimer {s : GpsState} {now : Nat} : s.clock ≤ now → now < 2 ^ 64 →
      Step scan s (.dataTimer, now)
        { s with fixStatus := .error, clock := now, notes := s.notes ++ [.silent now] }

def Start (s : GpsState) : Prop := ∃ distance, s = .init distance

/-! ### What a sentence does -/

variable {scan : Scan} {s : GpsState} {buf : List UInt8} {now : Nat}

/-- What decoding a sentence leaves to `gps_decode`. -/
structure Kept (s t : GpsState) : Prop where
  notes : t.notes = s.notes
  llt : t.llt = s.llt
  clock : t.clock = s.clock

theorem Kept.trans {s t u : GpsState} (first : Kept s t) (second : Kept t u) : Kept s u :=
  ⟨second.notes.trans first.notes, second.llt.trans first.llt, second.clock.trans first.clock⟩

theorem accDistance_kept (s : GpsState) (knots : ℚ) (diff : Nat) :
    Kept s (accDistance s knots diff) ∧ (accDistance s knots diff).synced = s.synced := by
  by_cases save : (s.moving + 1) % 60 = 30
  · rw [accDistance, if_pos save]
    exact ⟨⟨rfl, rfl, rfl⟩, rfl⟩
  · rw [accDistance, if_neg save]
    exact ⟨⟨rfl, rfl, rfl⟩, rfl⟩

theorem takeFix_kept (s : GpsState) (r : Rmc) (date : Nat) (time : ℚ) :
    Kept s (takeFix s r date time) ∧ (takeFix s r date time).synced = s.synced := by
  by_cases moves : 3000 / 1852 ≤ r.knots
  · simp only [takeFix, if_pos moves]
    obtain ⟨⟨notes, llt, clock⟩, synced⟩ :=
      accDistance_kept { s with lastSec := (gpsGetTimeDiff s.lastSec time).2 } r.knots
        (gpsGetTimeDiff s.lastSec time).1
    exact ⟨⟨notes, llt, clock⟩, synced⟩
  · simp only [takeFix, if_neg moves, and_true]
    exact ⟨rfl, rfl, rfl⟩

/-- The clock is set to the local time, or it is left alone. -/
theorem rmcFix_kept (s : GpsState) (r : Rmc) :
    Kept s (rmcFix s r) ∧ ((rmcFix s r).synced = s.synced ∨
      ∃ date time, gpsUtc2local r.date r.time = (date, time) ∧
        (rmcFix s r).synced = s.synced ++ [rtcTime date time]) := by
  rcases moved : gpsUtc2local r.date r.time with ⟨date, time⟩
  have set : Kept s (synTime s date time) ∧ ((synTime s date time).synced = s.synced ∨
      (synTime s date time).synced = s.synced ++ [rtcTime date time]) := by
    unfold synTime
    split
    · exact ⟨⟨rfl, rfl, rfl⟩, .inl rfl⟩
    · exact ⟨⟨rfl, rfl, rfl⟩, .inr rfl⟩
  have rest : Kept (synTime s date time) (rmcFix s r) ∧
      (rmcFix s r).synced = (synTime s date time).synced := by
    unfold rmcFix
    rw [moved]
    dsimp only
    split
    · exact ⟨⟨rfl, rfl, rfl⟩, rfl⟩
    · exact takeFix_kept _ _ _ _
  refine ⟨set.1.trans rest.1, set.2.imp rest.2.trans fun new => ?_⟩
  exact ⟨date, time, rfl, rest.2.trans new⟩

/-- A sentence is no RMC sentence, or it brought a fix, or it did not. -/
inductive Decoded (scan : Scan) (s : GpsState) (now : Nat) (t : GpsState) : Prop
  | other : Kept s t → t.synced = s.synced → Decoded scan s now t
  | fixed (buf : List UInt8) (r : Rmc) : scan.rmc buf = some r → r.status = 65 →
      t.notes = s.notes ++ [.fixed r now] → t.llt = 0 →
      (t.synced = s.synced ∨ ∃ date time, gpsUtc2local r.date r.time = (date, time) ∧
        t.synced = s.synced ++ [rtcTime date time]) → Decoded scan s now t
  | lost (mid : GpsState) : Kept s mid → mid.synced = s.synced → t = lostFix mid now →
      Decoded scan s now t

theorem gpsDecode_decoded (scan : Scan) (s : GpsState) (buf : List UInt8) (now : Nat) :
    Decoded scan s now (gpsDecode scan s buf now) := by
  have same : Kept s s := ⟨rfl, rfl, rfl⟩
  unfold gpsDecode
  split
  · exact .other same rfl
  · split
    · unfold gpsDecodeRmc
      cases read : (scan.rmc buf).filter (·.status = 65) with
      | some r =>
        obtain ⟨found, valid⟩ := Option.filter_eq_some_iff.mp read
        obtain ⟨kept, synced⟩ := rmcFix_kept { s with timeNotChange := false } r
        refine .fixed buf r found (of_decide_eq_true valid) ?_ rfl synced
        exact congrArg (· ++ [Note.fixed r now]) kept.notes
      | none =>
        exact .lost { s with timeNotChange := false, snap := .zero } ⟨rfl, rfl, rfl⟩ rfl rfl
    · split
      · unfold gpsDecodeGga
        split
        · exact .other same rfl
        · cases scan.gga buf with
          | none => exact .other same rfl
          | some g =>
            dsimp only
            split
            · exact .other ⟨rfl, rfl, rfl⟩ rfl
            · exact .other same rfl
      · exact .other same rfl

end Gps
