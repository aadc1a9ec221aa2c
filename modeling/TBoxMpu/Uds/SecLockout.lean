import Mathlib.Data.UInt
import TBoxMpu.Uds.SecAccess

/-!
# The lock-out of security access

Runs of `UDS_SRV_SecrityAcess` with the time of every request. The fail counter locks the
service for ten seconds at a third failure; the attempt counter is raised beside it and reset
nowhere, so that no key is looked at again after the third wrong one.
-/

namespace Uds

/-! ### Timed runs -/

/-- A request, its answer, and `tm_get_time` at it. -/
structure TimedExchange extends Exchange where
  now : UInt64

/-- The service with its exchanges, the latest first. -/
structure LockRun where
  sec : SecAccess
  log : List TimedExchange

/-- The start-up delay is over, and time does not run back. -/
def LockRun.allows (r : LockRun) (now : UInt64) : Prop := 900 ≤ now ∧ ∀ x ∈ r.log, x.now ≤ now

instance (r : LockRun) (now : UInt64) : Decidable (r.allows now) :=
  inferInstanceAs (Decidable (_ ∧ _))

def lockStep (rand : UInt32 → UInt32) (r : LockRun) : SecEvent → Option LockRun
  | .request now pdu =>
    if r.allows now then
      let (sec, answer) := udsSrvSecrityAcess rand now pdu r.sec
      some ⟨sec, ⟨⟨pdu, answer⟩, now⟩ :: r.log⟩
    else none
  | .sessionDefault => some { r with sec := { r.sec with level := .level0 } }

/-- The runs from a state. -/
def LockReach (rand : UInt32 → UInt32) (r : LockRun) : LockRun → Prop :=
  Runs.Reach (· = r) fun r e r' => lockStep rand r e = some r'

def LockRun.initial : LockRun := ⟨.initial, []⟩

/-- The sub-functions that bring a key. -/
def Exchange.isKey (x : Exchange) : Bool := subFunction x.pdu = 0x02 || subFunction x.pdu = 0x04

/-- A key that was compared and is not the one of the seed. -/
def Exchange.wrongKey (x : Exchange) : Bool := x.answer = .negative nrcInvalidKey

def SecAnswer.accepted : SecAnswer → Bool
  | .positive _ _ => true
  | .negative _ => false

def Exchange.correctKey (x : Exchange) : Bool := x.isKey && x.answer.accepted

/-- The wrong keys since the last correct one. -/
def wrongInRow : List TimedExchange → Nat
  | [] => 0
  | x :: earlier =>
    if x.correctKey then 0
    else if x.wrongKey then wrongInRow earlier + 1
    else wrongInRow earlier

/-- The time of the last exchange, if it is the third wrong key in a row. -/
def thirdWrongAt : List TimedExchange → Option UInt64
  | [] => none
  | x :: earlier =>
    if x.wrongKey ∧ wrongInRow (x :: earlier) = 3 then some x.now else none

/-- A key request with the right key for the seed. -/
def rightKey (L : SecLevel) (seed : UInt32) : List UInt8 :=
  0x27 :: L.seedKey :: wordBytes (saGetKey seed L.seedKey)

theorem rightKey_sub (L : SecLevel) (seed : UInt32) :
    subFunction (rightKey L seed) = L.seedKey := by
  have byte : (rightKey L seed).getD 1 0 = L.seedKey := rfl
  unfold subFunction
  rw [byte]
  cases L <;> decide

/-- A request that issues a new seed at level 0, ten seconds after `T` or later, and then the
right key for it: accepted. -/
def LockEnds (rand : UInt32 → UInt32) (T : UInt64) (r : LockRun) : Prop :=
  ∀ r₁, LockReach rand r r₁ → r₁.sec.level = .level0 → r₁.sec.flag = false →
    ∀ now, T.toNat + 10000 ≤ now.toNat → ∀ pdu r₂,
      lockStep rand r₁ (.request now pdu) = some r₂ → r₂.sec.flag = true →
        ∀ later, r₂.allows later → ∀ L : SecLevel, L ≠ .level0 →
          (udsSrvSecrityAcess rand later (rightKey L r₂.sec.seed) r₂.sec).2.accepted

/-! ### The counters -/

/-- What a request that passes the lock-out check does to the counters, for each kind of
answer. -/
inductive Counted (now : UInt32) (s : SecAccess) (pdu : List UInt8) (s' : SecAccess) :
    SecAnswer → Prop
  | refused (nrc : UInt8) : nrc ≠ nrcInvalidKey → s'.failCounter = s.failCounter →
      s'.time = s.time → s'.attempt = s.attempt → Counted now s pdu s' (.negative nrc)
  | wrong : s.attempt < 3 → s'.failCounter = (s.fail now).failCounter →
      s'.time = (s.fail now).time → s'.attempt = s.attempt + 1 →
      Counted now s pdu s' (.negative nrcInvalidKey)
  | seed (data : List UInt8) (sent : Bool) : subFunction pdu ∈ [0x01, 0x03] →
      s.failCounter ≤ s'.failCounter ∧ s'.failCounter ≤ (s.fail now).failCounter →
      s'.attempt = s.attempt → Counted now s pdu s' (.positive data sent)
  | correct (data : List UInt8) (sent : Bool) : subFunction pdu ∈ [0x02, 0x04] →
      s.attempt < 3 → s'.failCounter ≤ s.failCounter → s'.attempt = s.attempt →
      Counted now s pdu s' (.positive data sent)

variable {rand : UInt32 → UInt32} {now : UInt32} {s s' s₀ : SecAccess} {pdu : List UInt8}

theorem requestSeed_counted (sub : subFunction pdu ∈ [0x01, 0x03]) (few : s.failCounter < 3) :
    Counted now s pdu (requestSeed rand now pdu s).1 (requestSeed rand now pdu s).2 := by
  unfold requestSeed
  split
  · exact .refused _ (by decide) rfl rfl rfl
  · refine .seed _ _ sub ?_ ?_
    · -- a seed asked for while the last one is unused counts as a failure
      unfold newSeed
      split
      · exact ⟨by simp only [SecAccess.fail]; grind, UInt32.le_refl _⟩
      · split <;> exact ⟨UInt32.le_refl _, by simp only [SecAccess.fail]; grind⟩
    · unfold newSeed
      split
      · rfl
      · split <;> rfl

theorem seedKey_counted (mode byte : UInt8) (level : SecLevel)
    (sub : subFunction pdu ∈ [0x02, 0x04]) :
    Counted now s pdu (seedKey mode byte level now pdu s).1
      (seedKey mode byte level now pdu s).2 := by
  unfold seedKey
  split
  · exact .refused _ (by decide) rfl rfl rfl
  · split
    · exact .refused _ (by decide) rfl rfl rfl
    · split
      · exact .refused _ (by decide) rfl rfl rfl
      -- only here is the key compared
      next left =>
        have left : s.attempt < 3 := by grind
        split
        · refine .correct _ _ sub left ?_ ?_
          · unfold SecAccess.accept
            split
            · exact UInt32.zero_le
            · exact UInt32.le_refl _
          · unfold SecAccess.accept
            split <;> rfl
        · exact .wrong left rfl rfl rfl

theorem secSubFunction_counted (few : s.failCounter < 3) :
    Counted now s pdu (secSubFunction rand now pdu s).1 (secSubFunction rand now pdu s).2 := by
  unfold secSubFunction
  split
  next sub => exact requestSeed_counted (by simpa using sub) few
  next =>
    split
    next sub => exact seedKey_counted 2 0x02 .level1 (by simp [sub])
    next =>
      split
      next sub => exact seedKey_counted 4 0x12 .level2 (by simp [sub])
      next => exact .refused _ (by decide) rfl rfl rfl

/-- The service is open if fewer than three failures are counted or the ten seconds are over;
then at most two are. -/
theorem lockOut_counted (few : s₀.failCounter ≤ 3) (h : lockOut now s₀ = some s) :
    s.failCounter < 3 ∧ s.attempt = s₀.attempt ∧ (s₀.failCounter = 3 → ¬ now - s₀.time < 10) ∧
      (s.failCounter = s₀.failCounter ∨ s₀.failCounter = 3 ∧ s.failCounter = 2) := by
  unfold lockOut at h
  split at h
  -- the lock is on: within the ten seconds the call is refused
  next full =>
    have three : s₀.failCounter = 3 := by grind
    split at h
    · cases h
    next past =>
      cases h
      have less : (3 : UInt32) - 1 < 3 ∧ (3 : UInt32) - 1 = 2 := by decide
      rw [three]
      exact ⟨less.1, rfl, fun _ => past, .inr ⟨rfl, less.2⟩⟩
  next open' =>
    cases h
    exact ⟨by grind, rfl, fun three => absurd three (by grind), .inl rfl⟩

/-- A request is refused at the door and changes nothing, or is counted after the lock-out
check. -/
theorem udsSrvSecrityAcess_counted (rand : UInt32 → UInt32) (now : UInt64) (pdu : List UInt8)
    (few : s₀.failCounter ≤ 3) {answer : SecAnswer}
    (h : udsSrvSecrityAcess rand now pdu s₀ = (s', answer)) :
    (s' = s₀ ∧ ∃ nrc, nrc ≠ nrcInvalidKey ∧ answer = .negative nrc) ∨
      ∃ s, lockOut (now / 1000).toUInt32 s₀ = some s ∧
        Counted (now / 1000).toUInt32 s pdu s' answer := by
  unfold udsSrvSecrityAcess at h
  split at h
  · cases h
    exact .inl ⟨rfl, _, by decide, rfl⟩
  · split at h
    · cases h
      exact .inl ⟨rfl, _, by decide, rfl⟩
    · cases check : lockOut (now / 1000).toUInt32 s₀ with
      | none =>
        rw [check] at h
        cases h
        exact .inl ⟨rfl, _, by decide, rfl⟩
      | some s =>
        rw [check] at h
        have done : secSubFunction rand (now / 1000).toUInt32 pdu s = (s', answer) := h
        have counted : Counted (now / 1000).toUInt32 s pdu
            (secSubFunction rand (now / 1000).toUInt32 pdu s).1
            (secSubFunction rand (now / 1000).toUInt32 pdu s).2 :=
          secSubFunction_counted (lockOut_counted few check).1
        rw [done] at counted
        exact .inr ⟨s, rfl, counted⟩

/-! ### What holds in every run -/

/-- No more than three failures are counted, and the wrong keys in a row are counted by both
counters, by the fail counter up to the second. -/
structure LockInv (r : LockRun) : Prop where
  few : r.sec.failCounter ≤ 3
  failed : min (wrongInRow r.log) 2 ≤ r.sec.failCounter.toNat
  attempts : r.sec.attempt ≤ 3
  tried : wrongInRow r.log ≤ r.sec.attempt.toNat
  idle : r.sec.flag = true → r.sec.level = .level0

theorem lockStep_request {r r' : LockRun} {now : UInt64}
    (h : lockStep rand r (.request now pdu) = some r') :
    r.allows now ∧ ∃ s' answer, udsSrvSecrityAcess rand now pdu r.sec = (s', answer) ∧
      r' = ⟨s', ⟨⟨pdu, answer⟩, now⟩ :: r.log⟩ := by
  obtain ⟨allowed, h⟩ := Option.ite_none_right_eq_some.mp h
  cases h
  exact ⟨allowed, _, _, rfl, rfl⟩

theorem lockStep_allows (rand : UInt32 → UInt32) (pdu : List UInt8) {r : LockRun} {now : UInt64}
    (allowed : r.allows now) :
    ∃ r', lockStep rand r (.request now pdu) = some r' ∧
      r'.sec = (udsSrvSecrityAcess rand now pdu r.sec).1 ∧ r'.allows now := by
  refine ⟨_, if_pos allowed, rfl, allowed.1, ?_⟩
  rintro x (_ | ⟨_, mem⟩)
  · exact UInt64.le_refl _
  · exact allowed.2 x mem

/-- A refused request keeps the level. -/
theorem refused_level (now : UInt64) {nrc : UInt8}
    (h : udsSrvSecrityAcess rand now pdu s = (s', .negative nrc)) : s'.level = s.level := by
  have served := udsSrvSecrityAcess_served rand now pdu s
  rw [h] at served
  cases served with
  | refused _ _ _ _ level => exact level
  | exceeded _ level => exact level

theorem locked_request (now : UInt64) {answer : SecAnswer}
    (h : udsSrvSecrityAcess rand now pdu s = (s', answer))
    (idle : s.flag = true → s.level = .level0) : s'.flag = true → s'.level = .level0 := by
  have served := udsSrvSecrityAcess_served rand now pdu s
  rw [h] at served
  intro waits
  cases served with
  | refused _ _ flag _ level => exact level.trans (idle (flag ▸ waits))
  | exceeded flag _ => cases flag.symm.trans waits
  | seed _ _ _ _ flag level => exact level.trans ((flag waits).elim id idle)
  | key _ _ _ _ _ _ _ _ flag _ => cases flag.symm.trans waits

theorem wrongInRow_refused {nrc : UInt8} (other : nrc ≠ nrcInvalidKey) (now : UInt64)
    (log : List TimedExchange) :
    wrongInRow (⟨⟨pdu, .negative nrc⟩, now⟩ :: log) = wrongInRow log := by
  simp [wrongInRow, Exchange.correctKey, Exchange.wrongKey, SecAnswer.accepted, other]

theorem wrongInRow_wrong (now : UInt64) (log : List TimedExchange) :
    wrongInRow (⟨⟨pdu, .negative nrcInvalidKey⟩, now⟩ :: log) = wrongInRow log + 1 := by
  simp [wrongInRow, Exchange.correctKey, Exchange.wrongKey, SecAnswer.accepted]

theorem wrongInRow_positive (data : List UInt8) (sent : Bool) (now : UInt64)
    (log : List TimedExchange) :
    wrongInRow (⟨⟨pdu, .positive data sent⟩, now⟩ :: log) =
      if subFunction pdu ∈ [0x02, 0x04] then 0 else wrongInRow log := by
  simp [wrongInRow, Exchange.correctKey, Exchange.wrongKey, Exchange.isKey, SecAnswer.accepted]

theorem toNat_count {c : UInt32} (below : c < 3) : (c + 1).toNat = c.toNat + 1 := by
  have bound : c.toNat < 3 := below
  rw [UInt32.toNat_add]
  exact Nat.mod_eq_of_lt (by simp only [UInt32.toNat_one]; omega)

theorem lockInv_request {r : LockRun} {now : UInt64} {answer : SecAnswer} (inv : LockInv r)
    (h : udsSrvSecrityAcess rand now pdu r.sec = (s', answer)) :
    LockInv ⟨s', ⟨⟨pdu, answer⟩, now⟩ :: r.log⟩ := by
  have idle := locked_request now h inv.idle
  obtain ⟨few, failed, attempts, tried, -⟩ := inv
  rcases udsSrvSecrityAcess_counted rand now pdu few h with
    ⟨rfl, nrc, other, rfl⟩ | ⟨s, check, counted⟩
  · have row : wrongInRow (⟨⟨pdu, .negative nrc⟩, now⟩ :: r.log) = wrongInRow r.log :=
      wrongInRow_refused other now r.log
    exact ⟨few, row ▸ failed, attempts, row ▸ tried, idle⟩
  · -- the lock-out is over or was none, so the fail counter is below its bound
    obtain ⟨below, same, -, kept⟩ := lockOut_counted few check
    have failed : min (wrongInRow r.log) 2 ≤ s.failCounter.toNat := by
      rcases kept with kept | ⟨-, kept⟩
      · exact kept ▸ failed
      · rw [kept]
        exact Nat.min_le_right ..
    rw [← same] at attempts tried
    cases counted with
    | refused nrc other fails time attempt =>
      refine ⟨?_, ?_, ?_, ?_, idle⟩
      · exact fails ▸ UInt32.le_of_lt below
      · simpa [wrongInRow_refused other, fails] using failed
      · exact attempt ▸ attempts
      · simpa [wrongInRow_refused other, attempt] using tried
    | wrong left fails time attempt =>
      have fails : s'.failCounter.toNat = s.failCounter.toNat + 1 := by
        rw [fails]
        exact toNat_count below
      have attempt : s'.attempt.toNat = s.attempt.toNat + 1 := by
        rw [attempt]
        exact toNat_count left
      have below : s.failCounter.toNat < 3 := below
      have left : s.attempt.toNat < 3 := left
      refine ⟨?_, ?_, ?_, ?_, idle⟩
      · exact UInt32.le_iff_toNat_le.mpr (fails ▸ below)
      · rw [wrongInRow_wrong]
        dsimp only
        omega
      · exact UInt32.le_iff_toNat_le.mpr (attempt ▸ left)
      · rw [wrongInRow_wrong]
        dsimp only
        omega
    | seed data sent sub fails attempt =>
      have bound : s'.failCounter ≤ s.failCounter + 1 := fails.2
      have other : subFunction pdu ∉ [0x02, 0x04] := by grind
      refine ⟨by grind, ?_, attempt ▸ attempts, ?_, idle⟩
      · rw [wrongInRow_positive, if_neg other]
        exact Nat.le_trans failed (UInt32.le_iff_toNat_le.mp fails.1)
      · rw [wrongInRow_positive, if_neg other]
        exact attempt ▸ tried
    | correct data sent sub left fails attempt =>
      -- a key that is right ends the row
      refine ⟨by grind, ?_, attempt ▸ attempts, ?_, idle⟩
      · rw [wrongInRow_positive, if_pos sub]
        exact Nat.zero_le _
      · rw [wrongInRow_positive, if_pos sub]
        exact Nat.zero_le _

theorem lockInv_reach {r : LockRun} (reach : LockReach rand .initial r) : LockInv r := by
  have starts : ∀ r, r = .initial → LockInv r := by
    rintro _ rfl
    exact ⟨UInt32.zero_le, Nat.zero_le _, UInt32.zero_le, Nat.zero_le _, nofun⟩
  have kept : ∀ r e r', LockInv r → lockStep rand r e = some r' → LockInv r' := by
    intro r e r' inv step
    -- a session change writes the level only
    cases e with
    | request now pdu =>
      obtain ⟨-, s', answer, call, rfl⟩ := lockStep_request step
      exact lockInv_request inv call
    | sessionDefault =>
      cases step
      exact ⟨inv.few, inv.failed, inv.attempts, inv.tried, fun _ => rfl⟩
  exact Runs.Reach.invariant starts kept reach

/-! ### After the third wrong key -/

theorem toUInt32_sub_lt {T now : UInt64} (order : T ≤ now)
    (soon : now.toNat / 1000 < T.toNat / 1000 + 10) :
    (now / 1000).toUInt32 - (T / 1000).toUInt32 < 10 := by
  have order : T.toNat ≤ now.toNat := order
  have bound := now.toNat_lt
  -- the seconds are compared in 32 bits: the difference is small, the two may wrap
  rw [UInt32.lt_iff_toNat_lt, UInt32.toNat_sub]
  simp
  omega

/-- The state that the third wrong key leaves. -/
theorem thirdWrong_state {r : LockRun} (reach : LockReach rand .initial r) {T : UInt64}
    (third : thirdWrongAt r.log = some T) :
    r.sec.failCounter = 3 ∧ r.sec.time = (T / 1000).toUInt32 ∧ r.sec.attempt = 3 ∧
      ∀ x ∈ r.log, x.now ≤ T := by
  induction reach with
  | start start =>
    subst start
    exact nomatch third
  | @next r r' e reach step ih =>
    cases e with
    | sessionDefault =>
      cases step
      exact ih third
    | request now pdu =>
      -- two wrong keys in a row have left both counters at two
      have inv := lockInv_reach reach
      obtain ⟨allowed, s', answer, call, rfl⟩ := lockStep_request step
      simp only [thirdWrongAt] at third
      split at third
      next wrong =>
        obtain ⟨wrong, row⟩ := wrong
        obtain rfl : now = T := Option.some.inj third
        obtain rfl : answer = .negative nrcInvalidKey := by
          simpa [Exchange.wrongKey] using wrong
        rw [wrongInRow_wrong] at row
        rcases udsSrvSecrityAcess_counted rand now pdu inv.few call with
          ⟨-, nrc, other, same⟩ | ⟨s, check, counted⟩
        · cases same
          exact absurd rfl other
        · -- only a compared key is answered by this code
          obtain ⟨below, same, -, kept⟩ := lockOut_counted inv.few check
          have failed := inv.failed
          have tried := inv.tried
          cases counted with
          | refused nrc other => exact absurd rfl other
          | wrong left fails time attempt =>
            have few : s.failCounter.toNat < 3 := below
            have two : s.failCounter = 2 := by
              rcases kept with kept | ⟨-, kept⟩
              · refine UInt32.toNat_inj.mp ?_
                rw [kept] at few ⊢
                have : (2 : UInt32).toNat = 2 := rfl
                omega
              · exact kept
            have tries : s.attempt = 2 := by
              have left : s.attempt.toNat < 3 := left
              refine UInt32.toNat_inj.mp ?_
              rw [same] at left ⊢
              have : (2 : UInt32).toNat = 2 := rfl
              omega
            simp only [SecAccess.fail, two] at fails time
            refine ⟨fails, time, attempt.trans (by rw [tries]; rfl), ?_⟩
            rintro x (_ | ⟨_, mem⟩)
            · exact UInt64.le_refl _
            · exact allowed.2 x mem
      next => cases third

/-- The state of the lock-out since the third wrong key at `T`. -/
structure Locked (T : UInt64) (r : LockRun) : Prop where
  inv : LockInv r
  tried : r.sec.attempt ≥ 3
  since : ∃ x ∈ r.log, x.now = T
  shut : ∀ now, r.allows now → now.toNat / 1000 < T.toNat / 1000 + 10 →
    r.sec.failCounter = 3 ∧ r.sec.time = (T / 1000).toUInt32

theorem Locked.refuses {r : LockRun} {T : UInt64} (locked : Locked T r) {now : UInt64}
    (allowed : r.allows now) (soon : now.toNat / 1000 < T.toNat / 1000 + 10) (pdu : List UInt8) :
    ∃ nrc, udsSrvSecrityAcess rand now pdu r.sec = (r.sec, .negative nrc) := by
  obtain ⟨full, time⟩ := locked.shut now allowed soon
  obtain ⟨x, mem, rfl⟩ := locked.since
  have shut : lockOut (now / 1000).toUInt32 r.sec = none := by
    unfold lockOut
    rw [full, time, if_pos (UInt32.le_refl _), if_pos (toUInt32_sub_lt (allowed.2 x mem) soon)]
  unfold udsSrvSecrityAcess
  rw [shut]
  split
  · exact ⟨_, rfl⟩
  · split <;> exact ⟨_, rfl⟩

/-- After three wrong keys in all, the attempts stay used up and no key is compared. -/
theorem attempts_used_up (few : s.failCounter ≤ 3) (tried : s.attempt ≥ 3) (now : UInt64)
    {answer : SecAnswer} (h : udsSrvSecrityAcess rand now pdu s = (s', answer)) :
    s'.attempt ≥ 3 ∧ (subFunction pdu ∈ [0x02, 0x04] → ∃ nrc, answer = .negative nrc) := by
  rcases udsSrvSecrityAcess_counted rand now pdu few h with
    ⟨rfl, nrc, -, refused⟩ | ⟨u, check, counted⟩
  · exact ⟨tried, fun _ => ⟨nrc, refused⟩⟩
  · obtain ⟨-, same, -, -⟩ := lockOut_counted few check
    rw [← same] at tried
    cases counted with
    | refused nrc other fails time attempt => exact ⟨attempt ▸ tried, fun _ => ⟨nrc, rfl⟩⟩
    -- a key is compared while attempts are left
    | wrong left => exact absurd tried (by grind)
    | seed data sent sub fails attempt => exact ⟨attempt ▸ tried, fun key => by grind⟩
    | correct data sent sub left => exact absurd tried (by grind)

theorem locked_request_kept {r : LockRun} {T now : UInt64} {answer : SecAnswer}
    (locked : Locked T r) (allowed : r.allows now)
    (call : udsSrvSecrityAcess rand now pdu r.sec = (s', answer)) :
    Locked T ⟨s', ⟨⟨pdu, answer⟩, now⟩ :: r.log⟩ := by
  obtain ⟨x, mem, time⟩ := locked.since
  refine ⟨lockInv_request locked.inv call, ?_, ⟨x, .tail _ mem, time⟩, ?_⟩
  · exact (attempts_used_up locked.inv.few locked.tried now call).1
  · intro later allows soon
    -- a request that is followed by one in the lock-out is in the lock-out
    have order : now.toNat ≤ later.toNat := allows.2 _ (.head _)
    have sooner : now.toNat / 1000 < T.toNat / 1000 + 10 := by omega
    obtain ⟨nrc, refused⟩ := locked.refuses allowed sooner pdu
    obtain rfl : s' = r.sec := congrArg Prod.fst (call.symm.trans refused)
    exact locked.shut now allowed sooner

theorem locked_reach {r r' : LockRun} {T : UInt64} (locked : Locked T r)
    (reach : LockReach rand r r') : Locked T r' := by
  have starts : ∀ r', r' = r → Locked T r' := by
    rintro _ rfl
    exact locked
  have kept : ∀ r e r', Locked T r → lockStep rand r e = some r' → Locked T r' := by
    intro r e r' locked step
    cases e with
    | sessionDefault =>
      cases step
      have inv := locked.inv
      exact ⟨⟨inv.few, inv.failed, inv.attempts, inv.tried, fun _ => rfl⟩, locked.tried,
        locked.since, locked.shut⟩
    | request now pdu =>
      obtain ⟨allowed, s', answer, call, rfl⟩ := lockStep_request step
      exact locked_request_kept locked allowed call
  exact Runs.Reach.invariant starts kept reach

theorem thirdWrong_locked {r : LockRun} (reach : LockReach rand .initial r) {T : UInt64}
    (third : thirdWrongAt r.log = some T) : Locked T r := by
  obtain ⟨full, time, tried, -⟩ := thirdWrong_state reach third
  refine ⟨lockInv_reach reach, by rw [tried]; decide, ?_, fun _ _ _ => ⟨full, time⟩⟩
  cases log : r.log with
  | nil =>
    rw [log] at third
    cases third
  | cons x earlier =>
    rw [log] at third
    simp only [thirdWrongAt] at third
    split at third
    · exact ⟨x, .head _, Option.some.inj third⟩
    · cases third

/-- A key request that is not compared clears the flag, so that the next seed is a new one. -/
theorem key_clears_flag (rand : UInt32 → UInt32) {now : UInt64} (started : 900 ≤ now)
    (unlocked : lockOut (now / 1000).toUInt32 s₀ = some s) (tried : s.attempt ≥ 3) :
    (udsSrvSecrityAcess rand now [0x27, 0x02, 0, 0, 0, 0] s₀).1 = { s with flag := false } := by
  unfold udsSrvSecrityAcess
  rw [unlocked, if_neg (by decide), if_neg (by grind)]
  dsimp only
  unfold secSubFunction
  rw [if_neg (by decide), if_pos (by decide)]
  unfold seedKeyLevel1 seedKey
  rw [if_neg (by decide)]
  split
  next idle => exact idle ▸ rfl
  next => rfl

theorem seed_request_sets_flag {now : UInt64} (started : 900 ≤ now)
    (unlocked : lockOut (now / 1000).toUInt32 s₀ = some s) (idle : s.flag = false)
    (zero : s.level = .level0) :
    (udsSrvSecrityAcess rand now [0x27, 0x01] s₀).1.flag = true := by
  unfold udsSrvSecrityAcess
  rw [unlocked, if_neg (by decide), if_neg (by grind)]
  dsimp only
  unfold secSubFunction
  rw [if_pos (by decide)]
  unfold requestSeed newSeed
  rw [if_neg (by decide), idle, if_neg (by decide), if_pos zero]

theorem lockOut_over {T now : UInt64} (full : s.failCounter = 3)
    (time : s.time = (T / 1000).toUInt32) (ten : now.toNat = T.toNat + 10000) :
    lockOut (now / 1000).toUInt32 s = some { s with failCounter := 2 } := by
  have past : ¬ (now / 1000).toUInt32 - (T / 1000).toUInt32 < 10 := by
    rw [UInt32.lt_iff_toNat_lt, UInt32.toNat_sub]
    simp [ten]
    omega
  unfold lockOut
  rw [full, time, if_pos (UInt32.le_refl _), if_neg past]
  rfl

/-- After the third wrong key in a row every request is refused until ten full seconds have
begun; but no key is ever accepted again, though new seeds are issued. -/
theorem no_key_after_lockout (rand : UInt32 → UInt32) {r : LockRun}
    (reach : LockReach rand .initial r) {T : UInt64} (third : thirdWrongAt r.log = some T) :
    (∀ r', LockReach rand r r' → ∀ now pdu, r'.allows now →
      now.toNat / 1000 < T.toNat / 1000 + 10 →
        ∃ nrc, udsSrvSecrityAcess rand now pdu r'.sec = (r'.sec, .negative nrc)) ∧
    (∀ r', LockReach rand r r' → ∀ now pdu, subFunction pdu ∈ [0x02, 0x04] →
      ∃ s nrc, udsSrvSecrityAcess rand now pdu r'.sec = (s, .negative nrc) ∧
        s.level = r'.sec.level) ∧
    (T.toNat + 10000 < 2 ^ 64 → ¬ LockEnds rand T r) := by
  have locked := thirdWrong_locked reach third
  have refused : ∀ r', LockReach rand r r' → ∀ now pdu, subFunction pdu ∈ [0x02, 0x04] →
      ∃ s nrc, udsSrvSecrityAcess rand now pdu r'.sec = (s, .negative nrc) ∧
        s.level = r'.sec.level := by
    intro r' further now pdu key
    have locked := locked_reach locked further
    obtain ⟨nrc, negative⟩ := (attempts_used_up locked.inv.few locked.tried now rfl).2 key
    have call : udsSrvSecrityAcess rand now pdu r'.sec =
      ((udsSrvSecrityAcess rand now pdu r'.sec).1, .negative nrc) := Prod.ext rfl negative
    exact ⟨_, nrc, call, refused_level now call⟩
  refine ⟨?_, refused, ?_⟩
  · intro r' further now pdu allowed soon
    exact (locked_reach locked further).refuses allowed soon pdu
  · intro clock ends
    obtain ⟨full, time, tried, past⟩ := thirdWrong_state reach third
    obtain ⟨now, ten⟩ : ∃ now : UInt64, now.toNat = T.toNat + 10000 :=
      ⟨.ofNat (T.toNat + 10000), UInt64.toNat_ofNat_of_lt' clock⟩
    have started : 900 ≤ now := UInt64.le_iff_toNat_le.mpr (by
      rw [ten]
      exact Nat.le_add_left_of_le (by decide))
    have allowed : r.allows now := by
      refine ⟨started, fun x mem => UInt64.le_iff_toNat_le.mpr ?_⟩
      have before : x.now.toNat ≤ T.toNat := past x mem
      omega
    -- level 0, the flag cleared by a key, a new seed, and its key
    let r₀ : LockRun := { r with sec := { r.sec with level := .level0 } }
    -- the return to the default session is the first of the four steps
    have default : LockReach rand r r₀ := .next .sessionDefault (.start rfl) rfl
    have unlocked : lockOut (now / 1000).toUInt32 r₀.sec = some { r₀.sec with failCounter := 2 } :=
      lockOut_over full time ten
    have cleared := key_clears_flag rand started unlocked
      (by simp only [r₀, tried]; decide)
    obtain ⟨r₁, first, kept, again⟩ := lockStep_allows rand [0x27, 0x02, 0, 0, 0, 0]
      (show r₀.allows now from allowed)
    rw [cleared] at kept
    obtain ⟨r₂, second, asked, later⟩ := lockStep_allows rand [0x27, 0x01] again
    have issued : r₂.sec.flag = true := by
      rw [asked, kept]
      exact seed_request_sets_flag started rfl rfl rfl
    have reach₁ : LockReach rand r r₁ := .next _ default first
    have accepted := ends r₁ reach₁ (by rw [kept]) (by rw [kept]) now (Nat.le_of_eq ten.symm)
      [0x27, 0x01] r₂
      second issued now later .level1 nofun
    obtain ⟨_, nrc, refusal, -⟩ := refused r₂ (.next _ reach₁ second) now
      (rightKey .level1 r₂.sec.seed) (by rw [rightKey_sub]; decide)
    rw [refusal] at accepted
    cases accepted

/-- The run of these events, without those that are not allowed. -/
def lockRun (r : LockRun) (events : List SecEvent) : LockRun :=
  events.foldl (fun r e => (lockStep sampleRand r e).getD r) r

theorem lockRun_reach (r : LockRun) (events : List SecEvent) :
    LockReach sampleRand r (lockRun r events) := by
  -- induction on the events, from any state reached so far
  suffices from_here : ∀ s, LockReach sampleRand r s → LockReach sampleRand r (lockRun s events) from
    from_here r (.start rfl)
  induction events with
  | nil => exact fun s reach => reach
  | cons e rest ih =>
    intro s reach
    refine ih _ ?_
    dsimp only
    cases step : lockStep sampleRand s e with
    | none => exact reach
    | some t => exact .next e reach step

/-- A seed and three wrong keys. -/
def threeWrongKeys : List SecEvent :=
  let wrong : SecEvent := .request 1999 [0x27, 0x02, 0, 0, 0, 0]
  [.request 1999 [0x27, 0x01], wrong, wrong, wrong]

theorem locked_for_ever :
    (∃ nrc, udsSrvSecrityAcess sampleRand 10999 [0x27, 0x01] (lockRun .initial threeWrongKeys).sec =
      ((lockRun .initial threeWrongKeys).sec, .negative nrc)) ∧
    ¬ LockEnds sampleRand 1999 (lockRun .initial threeWrongKeys) := by
  obtain ⟨shut, -, never⟩ := no_key_after_lockout sampleRand (lockRun_reach .initial threeWrongKeys)
    (T := 1999) (by decide)
  exact ⟨shut _ (.start rfl) 10999 _ (by decide) (by decide), never (by decide)⟩

/-- Nine seconds after the third wrong key a request is answered; after ten, the right key for a
new seed is refused. -/
theorem right_key_exceeds :
    ∃ r, LockReach sampleRand .initial r ∧ thirdWrongAt r.log = some 1999 ∧
      (udsSrvSecrityAcess sampleRand 11000 [0x27, 0x01] r.sec).2.accepted ∧
      ¬ LockEnds sampleRand 1999 r := by
  refine ⟨lockRun .initial threeWrongKeys, lockRun_reach .., by decide, by decide, ?_⟩
  intro ends
  have accepted := ends _ (lockRun_reach _ [.request 12000 [0x27, 0x02, 0, 0, 0, 0]])
    (by decide) (by decide) 12000 (by decide) [0x27, 0x01] _ rfl (by decide)
    12000 (by decide) .level1 nofun
  revert accepted
  decide

end Uds
