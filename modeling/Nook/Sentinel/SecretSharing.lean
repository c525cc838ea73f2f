import Nook.Lib.Steps
import Nook.Sentinel.FieldElement

set_option autoImplicit false

namespace Nook.Sentinel

open Nook.Auth Nook.Lib

structure IndexedShare where
  index : Byte
  bytes : List Byte
  deriving DecidableEq

/-- `SentinelThreshold::is_valid_for`. -/
def isValidFor (threshold participants : Nat) : Bool := 2 ≤ threshold ∧ threshold ≤ participants

namespace IndexedShare

def gfMul (a b : Byte) : Byte := multiplyLoop 8 a b 0

def gfPow (base exponent : Byte) : Byte := powerLoop gfMul 8 base exponent 1

def gfInv (value : Byte) : Byte := gfPow value 254

def validateSentinelThreshold (threshold requiredParticipants : Nat) : MultiDeviceResult Unit :=
  refuse (!isValidFor threshold requiredParticipants) .invalidSentinelThreshold

/-- The byte of a share and the last power of its index, coefficient after coefficient. -/
def evaluateLoop (index : Byte) : (coefficients : List Byte) → (y power : Byte) → Byte
  | [], y, _ => y
  | coefficient :: higher, y, power =>
    let power := gfMul power index
    evaluateLoop index higher (y ^^^ gfMul coefficient power) power

/-- One more byte for every share, with coefficients drawn for it. -/
def appendByte (degree : Nat) (entropy : Entropy) (shares : List IndexedShare)
    (drawn : Byte × Nat) : MultiDeviceResult (List IndexedShare) := do
  let coefficients ← RandomBytes.fill entropy drawn.2 degree
  pure (shares.map fun share =>
    { share with bytes := share.bytes ++ [evaluateLoop share.index coefficients drawn.1 1] })

def splitSecretBytes (secret : List Byte) (threshold requiredParticipants : Nat)
    (entropy : Entropy) : MultiDeviceResult (List IndexedShare) := do
  validateSentinelThreshold threshold requiredParticipants
  let shares := (List.range' 1 requiredParticipants).map fun index =>
    { index := BitVec.ofNat 8 index, bytes := [] }
  let degree := threshold - 1
  secret.zipIdx.foldlM (appendByte degree entropy) shares

/-- The numerator and the denominator of the weight of the share at position `i`. -/
def weightFraction (admitted : List IndexedShare) (i : Nat) (shareI : IndexedShare) : Byte × Byte :=
  admitted.zipIdx.foldl (fun (numerator, denominator) (shareJ, j) =>
    if i = j then (numerator, denominator)
    else (gfMul numerator shareJ.index, gfMul denominator (shareI.index ^^^ shareJ.index))) (1, 1)

/-- The byte so far with the weighted byte of one more share. -/
def addWeighted (admitted : List IndexedShare) (byteIndex : Nat) (value : Byte)
    (entry : IndexedShare × Nat) : MultiDeviceResult Byte :=
  let fraction := weightFraction admitted entry.2 entry.1
  if fraction.2 = 0 then .error .invalidSentinelShareEncoding
  else match entry.1.bytes[byteIndex]? with
  | none => .error .invalidSentinelShareEncoding
  | some shareByte => .ok (value ^^^ gfMul shareByte (gfMul fraction.1 (gfInv fraction.2)))

def reconstructByte (admitted : List IndexedShare) (byteIndex : Nat) : MultiDeviceResult Byte :=
  admitted.zipIdx.foldlM (addWeighted admitted byteIndex) 0

def reconstructSecretBytes (shares : List IndexedShare) (threshold : Nat) :
    MultiDeviceResult (List Byte) :=
  if shares.length < threshold then .error (.notEnoughSentinelShares threshold shares.length)
  else match shares.head? with
  | none => .error .invalidSentinelShareEncoding
  | some first =>
    let length := first.bytes.length
    if shares.any fun share => share.index = 0 ∨ share.bytes.length ≠ length then
      .error .invalidSentinelShareEncoding
    else (List.range length).mapM (reconstructByte (shares.take threshold))

/-! ### Splitting -/

theorem mk_gfMul (a b : Byte) : (⟨gfMul a b⟩ : Gf256) = ⟨a⟩ * ⟨b⟩ :=
  FieldElement.mk_multiply a b

theorem mk_gfInv (value : Byte) : (⟨gfInv value⟩ : Gf256) = ⟨value⟩⁻¹ :=
  FieldElement.mk_power value

theorem mk_evaluateLoop (index : Byte) (coefficients : List Byte) (y power : Byte) :
    (⟨evaluateLoop index coefficients y power⟩ : Gf256) = ⟨y⟩ + ⟨power⟩ * (⟨index⟩ *
      (ofCoefficients (coefficients.map Gf256.mk)).eval ⟨index⟩) := by
  induction coefficients generalizing y power with
  | nil => simp [evaluateLoop]
  | cons coefficient higher ih =>
    simp only [evaluateLoop, ih, List.map_cons, eval_ofCoefficients_cons, FieldElement.mk_xor,
      mk_gfMul]
    ring

/-- The polynomial of the byte that is drawn for by the given call. -/
noncomputable def curve (coefficients : Nat → Nat → Byte) (degree : Nat) (byte : Byte × Nat) :
    Polynomial Gf256 :=
  ofCoefficients ((byte.1 :: (List.range degree).map (coefficients byte.2)).map Gf256.mk)

noncomputable def curves (secret : List Byte) (coefficients : Nat → Nat → Byte) (degree : Nat) :
    List (Polynomial Gf256) :=
  secret.zipIdx.map (curve coefficients degree)

theorem eval_curve (coefficients : Nat → Nat → Byte) (degree : Nat) (byte : Byte × Nat)
    (index : Byte) : ((curve coefficients degree byte).eval ⟨index⟩).bits =
      evaluateLoop index ((List.range degree).map (coefficients byte.2)) byte.1 1 := by
  have evaluated := mk_evaluateLoop index ((List.range degree).map (coefficients byte.2)) byte.1 1
  have one : (⟨1⟩ : Gf256) = 1 := rfl
  rw [one, one_mul, ← eval_ofCoefficients_cons] at evaluated
  exact (congrArg Gf256.bits evaluated).symm

theorem degree_curves_lt {secret : List Byte} {coefficients : Nat → Nat → Byte} {threshold : Nat}
    (positive : 0 < threshold) :
    ∀ curve ∈ curves secret coefficients (threshold - 1), curve.degree < threshold := by
  intro polynomial member
  obtain ⟨byte, _, rfl⟩ := List.mem_map.mp member
  have bound := degree_ofCoefficients_lt
    ((byte.1 :: (List.range (threshold - 1)).map (coefficients byte.2)).map Gf256.mk)
  have length : ((byte.1 :: (List.range (threshold - 1)).map (coefficients byte.2)).map
      Gf256.mk).length = threshold := by
    simp
    omega
  rwa [length] at bound

theorem bytesAt_curves_zero (secret : List Byte) (coefficients : Nat → Nat → Byte) (degree : Nat) :
    bytesAt (curves secret coefficients degree) 0 = secret := by
  have zero : (⟨0⟩ : Gf256) = 0 := rfl
  have constant : ∀ byte : Byte × Nat,
      ((curve coefficients degree byte).eval ⟨0⟩).bits = byte.1 := by
    intro byte
    rw [curve, List.map_cons, eval_ofCoefficients_cons, zero, zero_mul, add_zero]
  simp only [bytesAt, curves, List.map_map, Function.comp_def, constant]
  exact List.zipIdx_map_fst 0 secret

/-- The share with the given number of a split. -/
noncomputable def shareAt (curves : List (Polynomial Gf256)) (index : Nat) : IndexedShare where
  index := BitVec.ofNat 8 index
  bytes := bytesAt curves (BitVec.ofNat 8 index)

/-- The shares are the values of the polynomials at the indexes from one on. -/
theorem splitSecretBytes_eq {threshold participants : Nat} (valid : isValidFor threshold participants)
    (secret : List Byte) (coefficients : Nat → Nat → Byte) :
    splitSecretBytes secret threshold participants (fun call => .ok (coefficients call)) =
      .ok ((List.range' 1 participants).map
        (shareAt (curves secret coefficients (threshold - 1)))) := by
  have checked : validateSentinelThreshold threshold participants = .ok () := by
    simp [validateSentinelThreshold, valid]
  let sharesFor := fun before : List (Byte × Nat) => (List.range' 1 participants).map
    (shareAt (before.map (curve coefficients (threshold - 1))))
  have appended : ∀ before byte state, byte ∈ secret.zipIdx → state = sharesFor before →
      ∃ next, appendByte (threshold - 1) (fun call => .ok (coefficients call)) state byte =
        .ok next ∧ next = sharesFor (before ++ [byte]) := by
    rintro before byte _ - rfl
    refine ⟨_, rfl, ?_⟩
    simp only [sharesFor, List.map_map]
    apply List.map_congr_left
    intro index _
    simp [shareAt, bytesAt, eval_curve]
  obtain ⟨shares, folded, holds⟩ := foldlM_rule (fun before state => state = sharesFor before)
    secret.zipIdx (sharesFor []) rfl appended
  rw [splitSecretBytes, checked]
  exact folded.trans (congrArg Except.ok holds)

end IndexedShare

end Nook.Sentinel
