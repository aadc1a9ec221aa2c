import TBoxMpu.Lib.Bits
import TBoxMpu.Lib.Blocks
import TBoxMpu.Lib.Circulant

/-!
# The block cipher

`aes.c`: a block is ciphered and deciphered in ten rounds with an expanded key, and a string block
by block in its place.
-/

namespace Aes

/-! ### The tables -/

def sBox : List (List UInt8) := [
  [0x63, 0x7C, 0x77, 0x7B, 0xF2, 0x6B, 0x6F, 0xC5, 0x30, 0x01, 0x67, 0x2B, 0xFE, 0xD7, 0xAB, 0x76],
  [0xCA, 0x82, 0xC9, 0x7D, 0xFA, 0x59, 0x47, 0xF0, 0xAD, 0xD4, 0xA2, 0xAF, 0x9C, 0xA4, 0x72, 0xC0],
  [0xB7, 0xFD, 0x93, 0x26, 0x36, 0x3F, 0xF7, 0xCC, 0x34, 0xA5, 0xE5, 0xF1, 0x71, 0xD8, 0x31, 0x15],
  [0x04, 0xC7, 0x23, 0xC3, 0x18, 0x96, 0x05, 0x9A, 0x07, 0x12, 0x80, 0xE2, 0xEB, 0x27, 0xB2, 0x75],
  [0x09, 0x83, 0x2C, 0x1A, 0x1B, 0x6E, 0x5A, 0xA0, 0x52, 0x3B, 0xD6, 0xB3, 0x29, 0xE3, 0x2F, 0x84],
  [0x53, 0xD1, 0x00, 0xED, 0x20, 0xFC, 0xB1, 0x5B, 0x6A, 0xCB, 0xBE, 0x39, 0x4A, 0x4C, 0x58, 0xCF],
  [0xD0, 0xEF, 0xAA, 0xFB, 0x43, 0x4D, 0x33, 0x85, 0x45, 0xF9, 0x02, 0x7F, 0x50, 0x3C, 0x9F, 0xA8],
  [0x51, 0xA3, 0x40, 0x8F, 0x92, 0x9D, 0x38, 0xF5, 0xBC, 0xB6, 0xDA, 0x21, 0x10, 0xFF, 0xF3, 0xD2],
  [0xCD, 0x0C, 0x13, 0xEC, 0x5F, 0x97, 0x44, 0x17, 0xC4, 0xA7, 0x7E, 0x3D, 0x64, 0x5D, 0x19, 0x73],
  [0x60, 0x81, 0x4F, 0xDC, 0x22, 0x2A, 0x90, 0x88, 0x46, 0xEE, 0xB8, 0x14, 0xDE, 0x5E, 0x0B, 0xDB],
  [0xE0, 0x32, 0x3A, 0x0A, 0x49, 0x06, 0x24, 0x5C, 0xC2, 0xD3, 0xAC, 0x62, 0x91, 0x95, 0xE4, 0x79],
  [0xE7, 0xC8, 0x37, 0x6D, 0x8D, 0xD5, 0x4E, 0xA9, 0x6C, 0x56, 0xF4, 0xEA, 0x65, 0x7A, 0xAE, 0x08],
  [0xBA, 0x78, 0x25, 0x2E, 0x1C, 0xA6, 0xB4, 0xC6, 0xE8, 0xDD, 0x74, 0x1F, 0x4B, 0xBD, 0x8B, 0x8A],
  [0x70, 0x3E, 0xB5, 0x66, 0x48, 0x03, 0xF6, 0x0E, 0x61, 0x35, 0x57, 0xB9, 0x86, 0xC1, 0x1D, 0x9E],
  [0xE1, 0xF8, 0x98, 0x11, 0x69, 0xD9, 0x8E, 0x94, 0x9B, 0x1E, 0x87, 0xE9, 0xCE, 0x55, 0x28, 0xDF],
  [0x8C, 0xA1, 0x89, 0x0D, 0xBF, 0xE6, 0x42, 0x68, 0x41, 0x99, 0x2D, 0x0F, 0xB0, 0x54, 0xBB, 0x16]]

def invsBox : List (List UInt8) := [
  [0x52, 0x09, 0x6A, 0xD5, 0x30, 0x36, 0xA5, 0x38, 0xBF, 0x40, 0xA3, 0x9E, 0x81, 0xF3, 0xD7, 0xFB],
  [0x7C, 0xE3, 0x39, 0x82, 0x9B, 0x2F, 0xFF, 0x87, 0x34, 0x8E, 0x43, 0x44, 0xC4, 0xDE, 0xE9, 0xCB],
  [0x54, 0x7B, 0x94, 0x32, 0xA6, 0xC2, 0x23, 0x3D, 0xEE, 0x4C, 0x95, 0x0B, 0x42, 0xFA, 0xC3, 0x4E],
  [0x08, 0x2E, 0xA1, 0x66, 0x28, 0xD9, 0x24, 0xB2, 0x76, 0x5B, 0xA2, 0x49, 0x6D, 0x8B, 0xD1, 0x25],
  [0x72, 0xF8, 0xF6, 0x64, 0x86, 0x68, 0x98, 0x16, 0xD4, 0xA4, 0x5C, 0xCC, 0x5D, 0x65, 0xB6, 0x92],
  [0x6C, 0x70, 0x48, 0x50, 0xFD, 0xED, 0xB9, 0xDA, 0x5E, 0x15, 0x46, 0x57, 0xA7, 0x8D, 0x9D, 0x84],
  [0x90, 0xD8, 0xAB, 0x00, 0x8C, 0xBC, 0xD3, 0x0A, 0xF7, 0xE4, 0x58, 0x05, 0xB8, 0xB3, 0x45, 0x06],
  [0xD0, 0x2C, 0x1E, 0x8F, 0xCA, 0x3F, 0x0F, 0x02, 0xC1, 0xAF, 0xBD, 0x03, 0x01, 0x13, 0x8A, 0x6B],
  [0x3A, 0x91, 0x11, 0x41, 0x4F, 0x67, 0xDC, 0xEA, 0x97, 0xF2, 0xCF, 0xCE, 0xF0, 0xB4, 0xE6, 0x73],
  [0x96, 0xAC, 0x74, 0x22, 0xE7, 0xAD, 0x35, 0x85, 0xE2, 0xF9, 0x37, 0xE8, 0x1C, 0x75, 0xDF, 0x6E],
  [0x47, 0xF1, 0x1A, 0x71, 0x1D, 0x29, 0xC5, 0x89, 0x6F, 0xB7, 0x62, 0x0E, 0xAA, 0x18, 0xBE, 0x1B],
  [0xFC, 0x56, 0x3E, 0x4B, 0xC6, 0xD2, 0x79, 0x20, 0x9A, 0xDB, 0xC0, 0xFE, 0x78, 0xCD, 0x5A, 0xF4],
  [0x1F, 0xDD, 0xA8, 0x33, 0x88, 0x07, 0xC7, 0x31, 0xB1, 0x12, 0x10, 0x59, 0x27, 0x80, 0xEC, 0x5F],
  [0x60, 0x51, 0x7F, 0xA9, 0x19, 0xB5, 0x4A, 0x0D, 0x2D, 0xE5, 0x7A, 0x9F, 0x93, 0xC9, 0x9C, 0xEF],
  [0xA0, 0xE0, 0x3B, 0x4D, 0xAE, 0x2A, 0xF5, 0xB0, 0xC8, 0xEB, 0xBB, 0x3C, 0x83, 0x53, 0x99, 0x61],
  [0x17, 0x2B, 0x04, 0x7E, 0xBA, 0x77, 0xD6, 0x26, 0xE1, 0x69, 0x14, 0x63, 0x55, 0x21, 0x0C, 0x7D]]

/-- The entry of a byte; each row has sixteen. -/
def entry (box : List (List UInt8)) (b : UInt8) : UInt8 :=
  (box.getD (b.toNat / 16) []).getD (b.toNat % 16) 0

/-! ### Blocks -/

/-- `state`: the 16 bytes as the block has them, one column behind the other. -/
structure AesState where
  bytes : List UInt8
  full : bytes.length = 16

/-- `state[r][c]` -/
def AesState.get (s : AesState) (r c : Fin 4) : UInt8 := s.bytes.getD (c.val * 4 + r.val) 0

/-- The state whose entries the function gives. -/
def AesState.ofFn (f : Fin 4 → Fin 4 → UInt8) : AesState :=
  ⟨(List.finRange 4).flatMap fun c => (List.finRange 4).map fun r => f r c, rfl⟩

theorem forall_four {p : Fin 4 → Prop} (zero : p 0) (one : p 1) (two : p 2) (three : p 3)
    (r : Fin 4) : p r := by
  obtain ⟨r, small⟩ := r
  have cases : r = 0 ∨ r = 1 ∨ r = 2 ∨ r = 3 := by omega
  rcases cases with rfl | rfl | rfl | rfl
  · exact zero
  · exact one
  · exact two
  · exact three

@[simp] theorem get_ofFn (f : Fin 4 → Fin 4 → UInt8) (r c : Fin 4) :
    (AesState.ofFn f).get r c = f r c := by
  refine forall_four (p := fun c => (AesState.ofFn f).get r c = f r c) ?_ ?_ ?_ ?_ c
  all_goals
    refine forall_four (p := fun r => (AesState.ofFn f).get r _ = f r _) ?_ ?_ ?_ ?_ r
    all_goals rfl

theorem AesState.ext_get {s t : AesState} (same : ∀ r c, s.get r c = t.get r c) : s = t := by
  obtain ⟨bytes, full⟩ := s
  obtain ⟨bytes', full'⟩ := t
  have equal : bytes = bytes' := by
    refine List.ext_getElem (full.trans full'.symm) fun i inside inside' => ?_
    have row := same ⟨i % 4, by omega⟩ ⟨i / 4, by omega⟩
    have place : i / 4 * 4 + i % 4 = i := by omega
    simp only [AesState.get, place] at row
    simpa [List.getD_eq_getElem?_getD, inside, inside'] using row
  subst equal
  rfl

/-! ### The steps of a round -/

def subBytes (s : AesState) : AesState := .ofFn fun r c => entry sBox (s.get r c)

def invSubBytes (s : AesState) : AesState := .ofFn fun r c => entry invsBox (s.get r c)

def shiftRows (s : AesState) : AesState := .ofFn fun r c => s.get r (c + r)

def invShiftRows (s : AesState) : AesState := .ofFn fun r c => s.get r (c - r)

def addRoundKey (s k : AesState) : AesState := .ofFn fun r c => s.get r c ^^^ k.get r c

/-- `bw[i]` from `bw[i - 1]` -/
def ffDouble (b : UInt8) : UInt8 := if b &&& 0x80 ≠ 0 then b <<< 1 ^^^ 0x1B else b <<< 1

def ffMul (a b : UInt8) : UInt8 :=
  let add (bit res bw : UInt8) := if a >>> bit &&& 0x01 ≠ 0 then res ^^^ bw else res
  let bw1 := ffDouble b
  let bw2 := ffDouble bw1
  add 3 (add 2 (add 1 (add 0 0 b) bw1) bw2) (ffDouble bw2)

/-- The sums of both mixings, over the rows from `r` on. -/
def mixSum (f0 f1 f2 f3 : UInt8) (s : AesState) (r c : Fin 4) : UInt8 :=
  ffMul f0 (s.get r c) ^^^ ffMul f1 (s.get (r + 1) c) ^^^ ffMul f2 (s.get (r + 2) c) ^^^
    ffMul f3 (s.get (r + 3) c)

def mixColumns (s : AesState) : AesState := .ofFn (mixSum 0x02 0x03 0x01 0x01 s)

def invMixColumns (s : AesState) : AesState := .ofFn (mixSum 0x0E 0x0B 0x0D 0x09 s)

/-! ### The cipher -/

def rc : List UInt8 := [0x01, 0x02, 0x04, 0x08, 0x10, 0x20, 0x40, 0x80, 0x1B, 0x36]

/-- One round of `KeyExpansion`: the columns of `w[i]` from `w[i - 1]`. -/
def nextKey (rc : UInt8) (w : AesState) : AesState :=
  let t (r : Fin 4) : UInt8 :=
    entry sBox (w.get (r + 1) 3) ^^^ if r = 0 then rc else 0
  let w0 (r : Fin 4) := w.get r 0 ^^^ t r
  let w1 (r : Fin 4) := w.get r 1 ^^^ w0 r
  let w2 (r : Fin 4) := w.get r 2 ^^^ w1 r
  let w3 (r : Fin 4) := w.get r 3 ^^^ w2 r
  .ofFn fun r c => if c = 0 then w0 r else if c = 1 then w1 r else if c = 2 then w2 r else w3 r

/-- `w[i]` of `KeyExpansion` -/
def keyExpansion (key : AesState) : Nat → AesState
  | 0 => key
  | i + 1 => nextKey (rc.getD i 0) (keyExpansion key i)

def cipher (w : Nat → AesState) (input : AesState) : AesState :=
  (List.range' 1 10).foldl (fun state i =>
    let state := shiftRows (subBytes state)
    addRoundKey (if i ≠ 10 then mixColumns state else state) (w i)) (addRoundKey input (w 0))

def invCipher (w : Nat → AesState) (input : AesState) : AesState :=
  (List.range 10).reverse.foldl (fun state i =>
    let state := addRoundKey (invSubBytes (invShiftRows state)) (w i)
    if i ≠ 0 then invMixColumns state else state) (addRoundKey input (w 10))

/-! ### Each step is undone -/

theorem high_bit (a : UInt8) : a &&& 0x80 = 0 ∨ a &&& 0x80 = 0x80 := by
  revert a
  exact Bits.forall_byte (by decide +kernel)

theorem ffDouble_xor (a b : UInt8) : ffDouble (a ^^^ b) = ffDouble a ^^^ ffDouble b := by
  let carry (b : UInt8) : UInt8 := if b &&& 0x80 ≠ 0 then 0x1B else 0
  have sum (b : UInt8) : ffDouble b = b <<< 1 ^^^ carry b := by
    unfold ffDouble
    dsimp only [carry]
    split
    · rfl
    · rw [UInt8.xor_zero]
  have bit : (a ^^^ b) &&& 0x80 = (a &&& 0x80) ^^^ (b &&& 0x80) := by
    apply UInt8.toBitVec_inj.mp
    ext i
    simp [Bool.and_xor_distrib_right]
  -- of two carries none is left
  have carries : carry (a ^^^ b) = carry a ^^^ carry b := by
    dsimp only [carry]
    rw [bit]
    rcases high_bit a with low | high <;> rcases high_bit b with low' | high' <;>
      simp only [*] <;> rfl
  rw [sum, sum, sum, carries, UInt8.shiftLeft_xor]
  ac_rfl

theorem ffMul_xor (f a b : UInt8) : ffMul f (a ^^^ b) = ffMul f a ^^^ ffMul f b := by
  unfold ffMul
  simp only [ffDouble_xor]
  split <;> split <;> split <;> split <;> simp <;> ac_rfl

/-- The factor of a mixing, by the row's distance. -/
def factor (f0 f1 f2 f3 : UInt8) (i : Fin 4) : UInt8 :=
  if i = 0 then f0 else if i = 1 then f1 else if i = 2 then f2 else f3

def weights (f0 f1 f2 f3 : UInt8) (i : Fin 4) : Circulant.XorByte →+ Circulant.XorByte :=
  Circulant.xorHom (ffMul (factor f0 f1 f2 f3 i)) (ffMul_xor _)

def AesState.column (s : AesState) (c : Fin 4) : Fin 4 → Circulant.XorByte := fun r => s.get r c

theorem column_ofFn_mixSum (f0 f1 f2 f3 : UInt8) (s : AesState) (c : Fin 4) :
    (AesState.ofFn (mixSum f0 f1 f2 f3 s)).column c =
      Circulant.apply (weights f0 f1 f2 f3) (s.column c) := by
  funext r
  rw [Circulant.apply, Fin.sum_univ_four, add_zero]
  exact get_ofFn _ r c

/-- The factors of one mixing, convolved with those of the other. -/
theorem weights_unit (k : Fin 4) (a : Circulant.XorByte) :
    Circulant.mul (weights 0x0E 0x0B 0x0D 0x09) (weights 0x02 0x03 0x01 0x01) k a =
      if k = 0 then a else 0 := by
  have bits : ∀ k : Fin 4, ∀ b ∈ Circulant.singleBits,
      ffMul 0x0E (ffMul (factor 0x02 0x03 0x01 0x01 (k - 0)) b) ^^^
        ffMul 0x0B (ffMul (factor 0x02 0x03 0x01 0x01 (k - 1)) b) ^^^
        ffMul 0x0D (ffMul (factor 0x02 0x03 0x01 0x01 (k - 2)) b) ^^^
        ffMul 0x09 (ffMul (factor 0x02 0x03 0x01 0x01 (k - 3)) b) = if k = 0 then b else 0 := by
    decide +kernel
  have unit : Circulant.mul (weights 0x0E 0x0B 0x0D 0x09) (weights 0x02 0x03 0x01 0x01) k =
      if k = 0 then AddMonoidHom.id Circulant.XorByte else 0 := by
    refine Circulant.xorHom_ext fun b mem => ?_
    rw [Circulant.mul, AddMonoidHom.finsetSum_apply, Fin.sum_univ_four]
    by_cases place : k = 0
    · rw [if_pos place]
      exact (bits k b mem).trans (if_pos place)
    · rw [if_neg place]
      exact (bits k b mem).trans (if_neg place)
  rw [unit]
  split <;> rfl

theorem invMixColumns_mixColumns (s : AesState) : invMixColumns (mixColumns s) = s := by
  refine AesState.ext_get fun r c => ?_
  have columns : (invMixColumns (mixColumns s)).column c = s.column c := by
    rw [invMixColumns, column_ofFn_mixSum, mixColumns, column_ofFn_mixSum,
      Circulant.apply_undo weights_unit]
  exact congrFun columns r

theorem invSubBytes_subBytes (s : AesState) : invSubBytes (subBytes s) = s := by
  have table (b : UInt8) : entry invsBox (entry sBox b) = b := by
    revert b
    exact Bits.forall_byte (by decide +kernel)
  refine AesState.ext_get fun r c => ?_
  rw [invSubBytes, get_ofFn, subBytes, get_ofFn, table]

theorem invShiftRows_shiftRows (s : AesState) : invShiftRows (shiftRows s) = s := by
  refine AesState.ext_get fun r c => ?_
  rw [invShiftRows, get_ofFn, shiftRows, get_ofFn, sub_add_cancel]

theorem addRoundKey_twice (s k : AesState) : addRoundKey (addRoundKey s k) k = s := by
  refine AesState.ext_get fun r c => ?_
  rw [addRoundKey, get_ofFn, addRoundKey, get_ofFn, UInt8.xor_assoc, UInt8.xor_self,
    UInt8.xor_zero]

/-! ### The ciphers -/

/-- Deciphering undoes the rounds: each of its own takes the steps of one round from the middle of
it to the middle of the one before. -/
theorem invCipher_cipher (w : Nat → AesState) (input : AesState) :
    invCipher w (cipher w input) = input := by
  let mid (s : AesState) : AesState := shiftRows (subBytes s)
  let unmid (s : AesState) : AesState := invSubBytes (invShiftRows s)
  have unmid_mid (s : AesState) : unmid (mid s) = s := by
    rw [show unmid (mid s) = invSubBytes (invShiftRows (shiftRows (subBytes s))) from rfl,
      invShiftRows_shiftRows, invSubBytes_subBytes]
  let step (s : AesState) (i : Nat) : AesState := mid (addRoundKey (mixColumns s) (w i))
  let back (s : AesState) (i : Nat) : AesState := invMixColumns (addRoundKey (unmid s) (w i))
  have undo (s : AesState) (i : Nat) : back (step s i) i = s := by
    dsimp only [back, step]
    rw [unmid_mid, addRoundKey_twice, invMixColumns_mixColumns]
  -- all rounds but the last mix the columns
  have ciphered : cipher w input =
      addRoundKey ((List.range' 1 9).foldl step (mid (addRoundKey input (w 0)))) (w 10) := by
    have rounds : (List.range' 1 9).foldl step (mid (addRoundKey input (w 0))) =
        mid ((List.range' 1 9).foldl (fun s i => addRoundKey (mixColumns (mid s)) (w i))
          (addRoundKey input (w 0))) := List.foldl_hom mid fun _ _ => rfl
    rw [rounds]
    rfl
  have deciphered (s : AesState) : invCipher w s =
      addRoundKey (unmid ((List.range' 1 9).reverse.foldl back (addRoundKey s (w 10)))) (w 0) :=
    rfl
  rw [ciphered, deciphered, addRoundKey_twice, Blocks.foldl_undo undo, unmid_mid,
    addRoundKey_twice]

/-! ### Strings -/

/-- The block that 16 bytes in memory make. -/
def AesState.load (window : Nat → UInt8) : AesState :=
  ⟨(List.range 16).map window, by simp⟩

/-- `Cipher` or `InvCipher`, in place. -/
def onBlock (f : AesState → AesState) (window : Nat → UInt8) (i : Nat) : UInt8 :=
  (f (.load window)).bytes.getD i 0

/-- The rounds of `for(i=0; i<length; i+=16)`. -/
def blockCount (length : Nat) : Nat := (length + 15) / 16

/-- `CipherString` for a length above zero; zero stands for that of a string. -/
def cipherString (mem : Nat → UInt8) (input length : Nat) (key : AesState) : Nat → UInt8 :=
  Blocks.run 16 (onBlock (cipher (keyExpansion key))) (blockCount length) mem input

def invCipherString (mem : Nat → UInt8) (input length : Nat) (key : AesState) : Nat → UInt8 :=
  Blocks.run 16 (onBlock (invCipher (keyExpansion key))) (blockCount length) mem input

theorem load_congr {a b : Nat → UInt8} (same : ∀ i < 16, a i = b i) :
    AesState.load a = AesState.load b := by
  unfold AesState.load
  congr 1
  exact List.map_congr_left fun i mem => same i (List.mem_range.mp mem)

theorem onBlock_reads (f : AesState → AesState) : Blocks.Reads 16 (onBlock f) := by
  intro a b same i _
  unfold onBlock
  rw [load_congr same]

theorem load_onBlock (f : AesState → AesState) (window : Nat → UInt8) :
    AesState.load (onBlock f window) = f (.load window) := by
  have same : (List.range 16).map (onBlock f window) = (f (.load window)).bytes := by
    have full := (f (.load window)).full
    refine List.ext_getElem (by simp [full]) fun i inside inside' => ?_
    simp [onBlock, inside']
  rw [AesState.load, AesState.mk.injEq, same]

theorem onBlock_undo (key : AesState) (window : Nat → UInt8) : ∀ i < 16,
    onBlock (invCipher (keyExpansion key)) (onBlock (cipher (keyExpansion key)) window) i =
      window i := by
  intro i inside
  rw [onBlock, load_onBlock, invCipher_cipher]
  simp [AesState.load, inside]

end Aes
