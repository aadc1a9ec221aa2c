import TBoxMpu.Lib.Runs

/-!
# Security access

`UDS_SRV_SecrityAcess` with its static variables, `saGetKey`, and what ends a session. A seed
serves both levels; the levels differ in the key and in the byte that grants them.
-/

namespace Uds

/-! ### Keys -/

/-- `wconst1` and `wconst2`, from the lowest byte on. -/
def saConst (mode : UInt8) : UInt8 × UInt8 × UInt8 × UInt8 :=
  if mode = 2 then (0xb1, 0xa2, 0x49, 0x09) else (0xde, 0x08, 0x3b, 0x5f)

def saGetKey (wSeed : UInt32) (mode : UInt8) : UInt32 :=
  if mode ≠ 2 ∧ mode ≠ 4 then 0
  else
    let (a, b, c, d) := saConst mode
    let seed0 := (wSeed >>> 24).toUInt8
    let seed1 := (wSeed >>> 16).toUInt8
    let seed2 := (wSeed >>> 8).toUInt8
    let seed3 := wSeed.toUInt8
    let key0 := a * (seed0 * seed0) + b * (seed1 * seed1) + c * (seed0 * seed1)
    let key1 := a * seed0 + b * seed1 + d * (seed0 * seed1)
    let key2 := a * (seed2 * seed3) + b * (seed3 * seed3) + c * (seed2 * seed3)
    let key3 := a * (seed2 * seed3) + b * seed3 + d * (seed2 * seed3)
    key3.toUInt32 + key2.toUInt32 <<< 8 + key1.toUInt32 <<< 16 + key0.toUInt32 <<< 24

/-- The four bytes behind the sub-function: a key in a request, a seed in a response. -/
def wordOf (pdu : List UInt8) : UInt32 :=
  (pdu.getD 2 0).toUInt32 <<< 24 + (pdu.getD 3 0).toUInt32 <<< 16 +
    (pdu.getD 4 0).toUInt32 <<< 8 + (pdu.getD 5 0).toUInt32

def wordBytes (w : UInt32) : List UInt8 :=
  [(w >>> 24).toUInt8, (w >>> 16).toUInt8, (w >>> 8).toUInt8, w.toUInt8]

/-! ### The service -/

/-- `g_u8SecurityAccess` -/
inductive SecLevel
  | level0 | level1 | level2
  deriving DecidableEq, Repr

/-- The static variables that outlive a call, and `g_u8SecurityAccess`. -/
structure SecAccess where
  flag : Bool
  counter : UInt8
  failCounter : UInt32
  time : UInt32
  seed : UInt32
  attempt : UInt32
  level : SecLevel
  deriving Repr

def SecAccess.initial : SecAccess := ⟨false, 0, 0, 0, 0, 0, .level0⟩

def nrcSubFuncationNotSupported : UInt8 := 0x12

def nrcIncorrectMessageLength : UInt8 := 0x13

def nrcRequstSequenceError : UInt8 := 0x24

def nrcInvalidKey : UInt8 := 0x35

def nrcExceedNumberOfAttempts : UInt8 := 0x36

def nrcRequiredTimeDelayNotExpired : UInt8 := 0x37

/-- A negative response, or a positive one, which is sent unless it is to be suppressed. -/
inductive SecAnswer
  | negative (nrc : UInt8)
  | positive (data : List UInt8) (sent : Bool)
  deriving DecidableEq, Repr

/-- The sub-function without `suppressPosRspMsgIndicationBit`. -/
def subFunction (pdu : List UInt8) : UInt8 := pdu.getD 1 0 &&& 0x7F

def positiveAnswer (pdu more : List UInt8) : SecAnswer :=
  .positive ((pdu.getD 0 0 + 0x40) :: pdu.getD 1 0 :: more) (pdu.getD 1 0 &&& 0x80 = 0)

/-- One more failure; the third one starts the delay. -/
def SecAccess.fail (now : UInt32) (s : SecAccess) : SecAccess :=
  { s with
    failCounter := s.failCounter + 1
    time := if s.failCounter + 1 = 3 then now else s.time }

/-- After three failures: refused for ten seconds. -/
def lockOut (now : UInt32) (s : SecAccess) : Option SecAccess :=
  if s.failCounter ≥ 3 then
    -- in whole seconds; the counter then allows one more failure
    if now - s.time < 10 then none else some { s with failCounter := s.failCounter - 1 }
  else some s

/-- A seed that is not answered yet is given again; above level 0 the seed is zero. `rand` is
what `rand` returns after `srand`. -/
def newSeed (rand : UInt32 → UInt32) (now : UInt32) (s : SecAccess) : SecAccess :=
  -- asking again counts as a failure
  if s.flag then s.fail now
  else if s.level = .level0 then
    { s with counter := s.counter + 1, seed := rand (now + s.counter.toUInt32), flag := true }
  else { s with counter := s.counter + 1, seed := 0 }

def requestSeed (rand : UInt32 → UInt32) (now : UInt32) (pdu : List UInt8) (s : SecAccess) :
    SecAccess × SecAnswer :=
  -- the failure counter is not touched by a bad length
  if pdu.length ≠ 2 then (s, .negative nrcIncorrectMessageLength)
  else (newSeed rand now s, positiveAnswer pdu (wordBytes (newSeed rand now s).seed))

/-- A right key, which raises the level if the sub-function's byte is `byte`. -/
def SecAccess.accept (byte : UInt8) (level : SecLevel) (pdu : List UInt8) (s : SecAccess) :
    SecAccess :=
  if pdu.getD 1 0 = byte then { s with flag := false, level, failCounter := 0 }
  else { s with flag := false }

/-- The key of a level: `mode` is that of its key function. -/
def seedKey (mode byte : UInt8) (level : SecLevel) (now : UInt32) (pdu : List UInt8)
    (s : SecAccess) : SecAccess × SecAnswer :=
  if pdu.length ≠ 6 then (s, .negative nrcIncorrectMessageLength)
  else if s.flag = false then (s, .negative nrcRequstSequenceError)
  -- nothing takes this counter back
  else if s.attempt ≥ 3 then ({ s with flag := false }, .negative nrcExceedNumberOfAttempts)
  -- `accept` leaves the counters if the byte is another
  else if wordOf pdu = saGetKey s.seed mode then (s.accept byte level pdu, positiveAnswer pdu [])
  else ({ s.fail now with attempt := s.attempt + 1 }, .negative nrcInvalidKey)

/-- `SeedKey_Secrity_Level1`, granted to this byte. -/
def seedKeyLevel1 : UInt32 → List UInt8 → SecAccess → SecAccess × SecAnswer :=
  seedKey 2 0x02 .level1

/-- `SeedKey_Secrity_Level2`, granted to `SeedKey_Secrity_Level3`. -/
def seedKeyLevel2 : UInt32 → List UInt8 → SecAccess → SecAccess × SecAnswer :=
  seedKey 4 0x12 .level2

/-- The sub-functions, when the service is not locked. -/
def secSubFunction (rand : UInt32 → UInt32) (now : UInt32) (pdu : List UInt8) (s : SecAccess) :
    SecAccess × SecAnswer :=
  -- both levels ask in the same way
  if subFunction pdu = 0x01 ∨ subFunction pdu = 0x03 then requestSeed rand now pdu s
  else if subFunction pdu = 0x02 then seedKeyLevel1 now pdu s
  else if subFunction pdu = 0x04 then seedKeyLevel2 now pdu s
  else (s, .negative nrcSubFuncationNotSupported)

/-- `UDS_SRV_SecrityAcess`; `now` is `tm_get_time`. -/
def udsSrvSecrityAcess (rand : UInt32 → UInt32) (now : UInt64) (pdu : List UInt8)
    (s : SecAccess) : SecAccess × SecAnswer :=
  if pdu.length < 2 then (s, .negative nrcIncorrectMessageLength)
  -- the delay after the start, in milliseconds
  else if now < 900 then (s, .negative nrcRequiredTimeDelayNotExpired)
  else
    match lockOut (now / 1000).toUInt32 s with
    | none => (s, .negative nrcRequiredTimeDelayNotExpired)
    | some s => secSubFunction rand (now / 1000).toUInt32 pdu s

/-! ### Runs -/

/-- A request and its answer. -/
structure Exchange where
  pdu : List UInt8
  answer : SecAnswer

/-- The service with its exchanges, the latest first. -/
structure SecRun where
  sec : SecAccess
  history : List Exchange

/-- A request, or the end of the session: `S3SERVER` has run out, or the default session is
asked for. -/
inductive SecEvent
  | request (now : UInt64) (pdu : List UInt8)
  | sessionDefault

def secStep (rand : UInt32 → UInt32) (r : SecRun) : SecEvent → SecRun
  | .request now pdu =>
    let (sec, answer) := udsSrvSecrityAcess rand now pdu r.sec
    ⟨sec, ⟨pdu, answer⟩ :: r.history⟩
  | .sessionDefault => { r with sec := { r.sec with level := .level0 } }

/-- The runs since the start. -/
def SecReach (rand : UInt32 → UInt32) : SecRun → Prop :=
  Runs.Reach (· = ⟨.initial, []⟩) fun r e r' => r' = secStep rand r e

/-- The seed that the answer to a request for `asked` gives. -/
def Exchange.issued (asked : List UInt8) (x : Exchange) : Option UInt32 :=
  match x.answer with
  | .positive data _ => if subFunction x.pdu ∈ asked then some (wordOf data) else none
  | .negative _ => none

/-- A key that ends the use of a seed. -/
def Exchange.consumes (x : Exchange) : Bool :=
  (subFunction x.pdu = 0x02 || subFunction x.pdu = 0x04) &&
    match x.answer with
    | .positive _ _ => true
    | .negative nrc => nrc = nrcExceedNumberOfAttempts

/-- The seed last issued to a request for `asked`, unless it is consumed. -/
def pendingSeed (asked : List UInt8) : List Exchange → Option UInt32
  | [] => none
  | x :: earlier =>
    match x.issued asked with
    | some seed => some seed
    | none => if x.consumes then none else pendingSeed asked earlier

/-- The sub-functions of a level. -/
def SecLevel.requestSeed : SecLevel → UInt8
  | .level0 => 0
  | .level1 => 0x01
  | .level2 => 0x03

def SecLevel.seedKey : SecLevel → UInt8
  | .level0 => 0
  | .level1 => 0x02
  | .level2 => 0x04

/-- The byte that grants a level. -/
def SecLevel.grantByte : SecLevel → UInt8
  | .level0 => 0
  | .level1 => 0x02
  | .level2 => 0x12

/-! ### What a request does -/

theorem wordOf_wordBytes (a b : UInt8) (w : UInt32) : wordOf (a :: b :: wordBytes w) = w := by
  apply UInt32.toNat_inj.mp
  have bound := w.toNat_lt
  simp [wordOf, wordBytes, UInt32.toNat_add, UInt32.toNat_shiftLeft, UInt32.toNat_shiftRight,
    Nat.shiftLeft_eq, Nat.shiftRight_eq_div_pow]
  omega

/-- What a request makes of the flag, the seed and the level, for each kind of answer. -/
inductive Served (s : SecAccess) (pdu : List UInt8) (s' : SecAccess) : SecAnswer → Prop
  | refused (nrc : UInt8) : nrc ≠ nrcExceedNumberOfAttempts → s'.flag = s.flag →
      s'.seed = s.seed → s'.level = s.level → Served s pdu s' (.negative nrc)
  | exceeded : s'.flag = false → s'.level = s.level →
      Served s pdu s' (.negative nrcExceedNumberOfAttempts)
  | seed (data : List UInt8) (sent : Bool) : subFunction pdu ∈ [0x01, 0x03] →
      wordOf data = s'.seed → (s'.flag = true → s.level = .level0 ∨ s.flag = true) →
      s'.level = s.level → Served s pdu s' (.positive data sent)
  | key (L : SecLevel) (data : List UInt8) (sent : Bool) : L ≠ .level0 →
      subFunction pdu = L.seedKey → pdu.length = 6 → s.flag = true →
      wordOf pdu = saGetKey s.seed L.seedKey → s'.flag = false →
      s'.level = (if pdu.getD 1 0 = L.grantByte then L else s.level) →
      Served s pdu s' (.positive data sent)

variable {rand : UInt32 → UInt32} {now : UInt32} {s s₀ : SecAccess} {pdu : List UInt8}

theorem requestSeed_served (sub : subFunction pdu ∈ [0x01, 0x03]) :
    Served s pdu (requestSeed rand now pdu s).1 (requestSeed rand now pdu s).2 := by
  unfold requestSeed
  split
  · exact .refused _ (by decide) rfl rfl rfl
  · refine .seed _ _ sub (wordOf_wordBytes ..) ?_ ?_
    all_goals
      unfold newSeed
      split
      -- the seed stays, only the counters move
      next waits => simp [SecAccess.fail, waits]
      next => split <;> simp_all

theorem seedKey_served (L : SecLevel) (raises : L ≠ .level0) (sub : subFunction pdu = L.seedKey) :
    Served s pdu (seedKey L.seedKey L.grantByte L now pdu s).1
      (seedKey L.seedKey L.grantByte L now pdu s).2 := by
  unfold seedKey
  split
  · exact .refused _ (by decide) rfl rfl rfl
  next six =>
    split
    · exact .refused _ (by decide) rfl rfl rfl
    next asked =>
      split
      · exact .exceeded rfl rfl
      · split
        next right =>
          refine .key L _ _ raises sub (Decidable.not_not.mp six) ?_ right ?_ ?_
          · simpa using asked
          · unfold SecAccess.accept
            split
            · rfl
            · rfl
          · unfold SecAccess.accept
            split
            · rfl
            · rfl
        · exact .refused _ (by decide) rfl rfl rfl

/-- The lock-out check changes none of them. -/
theorem lockOut_same (h : lockOut now s₀ = some s) :
    s.flag = s₀.flag ∧ s.seed = s₀.seed ∧ s.level = s₀.level := by
  unfold lockOut at h
  split at h
  · split at h
    · cases h
    · cases h
      exact ⟨rfl, rfl, rfl⟩
  · cases h
    exact ⟨rfl, rfl, rfl⟩

theorem Served.unlocked {s' : SecAccess} {answer : SecAnswer} (h : Served s pdu s' answer)
    (same : s.flag = s₀.flag ∧ s.seed = s₀.seed ∧ s.level = s₀.level) :
    Served s₀ pdu s' answer := by
  obtain ⟨flag, seed, level⟩ := same
  cases h with
  | refused nrc other flag' seed' level' =>
    exact .refused nrc other (flag'.trans flag) (seed'.trans seed) (level'.trans level)
  | exceeded flag' level' => exact .exceeded flag' (level'.trans level)
  | seed data sent sub word flag' level' =>
    rw [flag, level] at flag'
    exact .seed data sent sub word flag' (level'.trans level)
  | key L data sent raises sub six asked right flag' level' =>
    rw [seed] at right
    rw [level] at level'
    exact .key L data sent raises sub six (flag ▸ asked) right flag' level'

theorem secSubFunction_served :
    Served s pdu (secSubFunction rand now pdu s).1 (secSubFunction rand now pdu s).2 := by
  unfold secSubFunction
  split
  next sub => exact requestSeed_served (by simpa using sub)
  next =>
    split
    next sub => exact seedKey_served .level1 nofun sub
    next =>
      split
      next sub => exact seedKey_served .level2 nofun sub
      next => exact .refused _ (by decide) rfl rfl rfl

theorem udsSrvSecrityAcess_served (rand : UInt32 → UInt32) (now : UInt64) (pdu : List UInt8)
    (s : SecAccess) :
    Served s pdu (udsSrvSecrityAcess rand now pdu s).1 (udsSrvSecrityAcess rand now pdu s).2 := by
  unfold udsSrvSecrityAcess
  split
  · exact .refused _ (by decide) rfl rfl rfl
  · split
    · exact .refused _ (by decide) rfl rfl rfl
    · cases check : lockOut (now / 1000).toUInt32 s with
      | none => exact .refused _ (by decide) rfl rfl rfl
      | some s' => exact secSubFunction_served.unlocked (lockOut_same check)

/-! ### Soundness -/

/-- While a seed waits for its key, it is the one last issued; the level is zero then, and
never two. -/
structure SecInv (r : SecRun) : Prop where
  pending : r.sec.flag = true → pendingSeed [0x01, 0x03] r.history = some r.sec.seed
  locked : r.sec.flag = true → r.sec.level = .level0
  low : r.sec.level ≠ .level2

theorem secInv_request {r : SecRun} (inv : SecInv r) (now : UInt64) (pdu : List UInt8) :
    SecInv (secStep rand r (.request now pdu)) := by
  have served := udsSrvSecrityAcess_served rand now pdu r.sec
  unfold secStep
  dsimp only
  generalize udsSrvSecrityAcess rand now pdu r.sec = result at served
  obtain ⟨s', answer⟩ := result
  cases served with
  | refused nrc other flag seed level =>
    refine ⟨fun waits => ?_, fun waits => ?_, ?_⟩
    · have before := inv.pending (flag ▸ waits)
      dsimp only
      rw [seed, pendingSeed]
      simp [Exchange.issued, Exchange.consumes, other, before]
    · exact level.trans (inv.locked (flag ▸ waits))
    · exact level ▸ inv.low
  | exceeded flag level => exact ⟨fun waits => by simp_all, fun waits => by simp_all, level ▸ inv.low⟩
  | seed data sent sub word flag level =>
    refine ⟨fun _ => ?_, fun waits => ?_, level ▸ inv.low⟩
    · dsimp only
      rw [pendingSeed]
      simp only [Exchange.issued]
      rw [if_pos sub, word]
    · rcases flag waits with zero | waited
      · exact level.trans zero
      · exact level.trans (inv.locked waited)
  | key L data sent raises sub six asked right flag level =>
    refine ⟨fun waits => ?_, fun waits => ?_, ?_⟩
    · cases flag.symm.trans waits
    · cases flag.symm.trans waits
    · dsimp only at level ⊢
      rw [level]
      split
      next granted =>
        rintro rfl
        -- the sub-function of level two is not the byte that grants it
        unfold subFunction at sub
        rw [granted] at sub
        exact absurd sub (by decide)
      · exact inv.low

theorem secInv_reach {r : SecRun} (reach : SecReach rand r) : SecInv r := by
  refine (Runs.Reach.invariant ?_ ?_ reach : SecInv r)
  · rintro _ rfl
    exact ⟨nofun, nofun, nofun⟩
  · rintro r e _ inv rfl
    cases e with
    | request now pdu => exact secInv_request inv now pdu
    | sessionDefault => exact ⟨inv.pending, fun _ => rfl, nofun⟩

/-- A level is raised only by a key for it, which answers the seed last issued to either
level and not consumed since. -/
theorem raised_by_key (rand : UInt32 → UInt32) {r : SecRun} (reach : SecReach rand r)
    (e : SecEvent) {L : SecLevel} (raises : L ≠ .level0) (before : r.sec.level ≠ L)
    (after : (secStep rand r e).sec.level = L) :
    ∃ now pdu seed, e = .request now pdu ∧ subFunction pdu = L.seedKey ∧ pdu.length = 6 ∧
      pendingSeed [0x01, 0x03] r.history = some seed ∧ wordOf pdu = saGetKey seed L.seedKey := by
  have inv := secInv_reach reach
  cases e with
  | sessionDefault => exact absurd after.symm raises
  | request now pdu =>
    have served := udsSrvSecrityAcess_served rand now pdu r.sec
    unfold secStep at after
    dsimp only at after
    generalize udsSrvSecrityAcess rand now pdu r.sec = result at served after
    obtain ⟨s', answer⟩ := result
    cases served with
    | refused _ _ _ _ level => exact absurd (level.symm.trans after) before
    | exceeded _ level => exact absurd (level.symm.trans after) before
    | seed _ _ _ _ _ level => exact absurd (level.symm.trans after) before
    | key M data sent _ sub six asked right _ level =>
      dsimp only at level after
      rw [level] at after
      split at after
      · subst after
        exact ⟨now, pdu, r.sec.seed, rfl, sub, six, inv.pending asked, right⟩
      · exact absurd after before

/-- What `rand` first returns after `srand(1)`. -/
def sampleRand : UInt32 → UInt32 := fun _ => 1804289383

/-- A request for a seed, and the key for level 1 or 2. -/
def seedRequest (sub : UInt8) : SecEvent := .request 1000 [0x27, sub]

def keyRequest (sub : UInt8) (mode : UInt8) : SecEvent :=
  .request 1000 (0x27 :: sub :: wordBytes (saGetKey 1804289383 mode))

/-- The run of these events. -/
def secRun (events : List SecEvent) : SecRun :=
  events.foldl (secStep sampleRand) ⟨.initial, []⟩

theorem secRun_reach (events : List SecEvent) : SecReach sampleRand (secRun events) := by
  unfold secRun
  have start : SecReach sampleRand ⟨.initial, []⟩ := .start rfl
  generalize (⟨.initial, []⟩ : SecRun) = r at start
  induction events generalizing r with
  | nil => exact start
  | cons e rest ih => exact ih _ (.next e start rfl)

theorem level_one_by_its_key :
    ∃ now pdu seed, keyRequest 0x02 2 = .request now pdu ∧ subFunction pdu = 0x02 ∧
      pdu.length = 6 ∧ pendingSeed [0x01, 0x03] (secRun [seedRequest 0x01]).history = some seed ∧
      wordOf pdu = saGetKey seed 0x02 :=
  raised_by_key sampleRand (secRun_reach _) _ (L := .level1) nofun (by decide)
    (by decide)

/-- Level 1 is granted for the key of a seed that was issued to a request for level 2. -/
theorem level_one_by_seed_of_two :
    ∃ r, SecReach sampleRand r ∧ r.sec.level = .level0 ∧
      (secStep sampleRand r (keyRequest 0x02 2)).sec.level = .level1 ∧
      pendingSeed [SecLevel.level1.requestSeed] r.history = none :=
  ⟨secRun [seedRequest 0x03], secRun_reach _, rfl, by decide, by decide⟩

/-! ### Completeness -/

/-- A key that is accepted grants its level exactly if it is the plain key for level 1. -/
theorem granted_iff (rand : UInt32 → UInt32) {r : SecRun} (reach : SecReach rand r)
    (now : UInt64) (pdu : List UInt8) {L : SecLevel} (sub : subFunction pdu = L.seedKey)
    (raises : L ≠ .level0) {data : List UInt8} {sent : Bool}
    (accepted : (udsSrvSecrityAcess rand now pdu r.sec).2 = .positive data sent) :
    (secStep rand r (.request now pdu)).sec.level = L ↔ pdu.getD 1 0 = 0x02 := by
  have inv := secInv_reach reach
  have served := udsSrvSecrityAcess_served rand now pdu r.sec
  unfold secStep
  dsimp only
  generalize udsSrvSecrityAcess rand now pdu r.sec = result at served accepted
  obtain ⟨s', answer⟩ := result
  dsimp only at accepted served ⊢
  subst accepted
  -- the answer is positive, so it is a seed or follows a right key
  cases served with
  | seed _ _ sub' =>
    rw [sub] at sub'
    cases L <;> exact absurd sub' (by decide)
  | key M _ _ raises' sub' six asked right flag level =>
    obtain rfl : M = L := by
      rw [sub'] at sub
      cases M <;> cases L <;> first | rfl | exact absurd sub (by decide)
    have zero := inv.locked asked
    rw [level, zero]
    cases M with
    | level0 => contradiction
    | level1 =>
      constructor
      · intro granted
        split at granted
        next byte => exact byte
        · cases granted
      · intro byte
        exact if_pos byte
    | level2 =>
      unfold subFunction at sub
      constructor
      · intro granted
        split at granted
        next byte =>
          rw [byte] at sub
          exact absurd sub (by decide)
        · cases granted
      · intro byte
        rw [byte] at sub
        exact absurd sub (by decide)

theorem plain_key_grants :
    (secStep sampleRand (secRun [seedRequest 0x01]) (keyRequest 0x02 2)).sec.level = .level1 :=
  have accepted : (udsSrvSecrityAcess sampleRand 1000
      (0x27 :: 0x02 :: wordBytes (saGetKey 1804289383 2)) (secRun [seedRequest 0x01]).sec).2 =
        .positive [0x67, 0x02] true := by decide
  (granted_iff sampleRand (secRun_reach [seedRequest 0x01]) 1000 _ (L := .level1)
    (by decide) nofun accepted).mpr (by decide)

/-- The right key for level 2 gets a positive response and no level, and so does the right key
for level 1 whose response is to be suppressed. -/
theorem accepted_without_grant :
    (udsSrvSecrityAcess sampleRand 1000 (0x27 :: 0x04 :: wordBytes (saGetKey 1804289383 4))
        (secRun [seedRequest 0x03]).sec).2 = .positive [0x67, 0x04] true ∧
      (secRun [seedRequest 0x03, keyRequest 0x04 4]).sec.level = .level0 ∧
      (udsSrvSecrityAcess sampleRand 1000 (0x27 :: 0x82 :: wordBytes (saGetKey 1804289383 2))
        (secRun [seedRequest 0x01]).sec).2 = .positive [0x67, 0x82] false ∧
      (secRun [seedRequest 0x01, keyRequest 0x82 2]).sec.level = .level0 := by
  refine ⟨?_, ?_, ?_, ?_⟩
  all_goals decide

end Uds
