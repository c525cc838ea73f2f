import Nook.Auth.AppKey
import Nook.Lib.Gf256
import Nook.Lib.Interpolation

set_option autoImplicit false

namespace Nook.Sentinel

open Nook.Auth Nook.Lib

abbrev Byte := BitVec 8

/-! ### The loops of the field arithmetic -/

/-- `left <<= 1`, reduced when a bit is carried out. -/
def shiftReduced (left : Byte) : Byte :=
  if left &&& 0x80 ≠ 0 then (left <<< 1) ^^^ 0x1b else left <<< 1

/-- `while right != 0`. A byte has no bit left after eight shifts. -/
def multiplyLoop : (shifts : Nat) → (left right product : Byte) → Byte
  | 0, _, _, product => product
  | shifts + 1, left, right, product =>
    if right = 0 then product
    else multiplyLoop shifts (shiftReduced left) (right >>> 1)
      (if right &&& 1 ≠ 0 then product ^^^ left else product)

/-- `while exponent != 0`. -/
def powerLoop (multiply : Byte → Byte → Byte) : (shifts : Nat) → (value exponent result : Byte) → Byte
  | 0, _, _, result => result
  | shifts + 1, value, exponent, result =>
    if exponent = 0 then result
    else powerLoop multiply shifts (multiply value value) (exponent >>> 1)
      (if exponent &&& 1 ≠ 0 then multiply result value else result)

theorem shiftReduced_eq : ∀ left : Byte, shiftReduced left = Gf256.double left := by
  decide +kernel

theorem low_bit : ∀ right : Byte, (right &&& 1 ≠ 0) ↔ right.getLsbD 0 = true := by
  decide +kernel

/-- The products with the lowest bits, the lowest bit taken out first. -/
theorem mulLow_succ_shift (left right : Byte) (shifts : Nat) :
    Gf256.mulLow left right (shifts + 1) =
      (if right.getLsbD 0 = true then left else 0) ^^^
        Gf256.mulLow (Gf256.double left) (right >>> 1) shifts := by
  induction shifts with
  | zero => simp [Gf256.mulLow]
  | succ shifts ih =>
    have shifted : (right >>> 1).getLsbD shifts = right.getLsbD (shifts + 1) := by
      simp [Nat.add_comm]
    rw [Gf256.mulLow, ih, Gf256.mulLow, shifted, BitVec.xor_assoc, Function.iterate_succ_apply]

theorem multiplyLoop_eq (shifts : Nat) (left right product : Byte) :
    multiplyLoop shifts left right product = product ^^^ Gf256.mulLow left right shifts := by
  induction shifts generalizing left right product with
  | zero => simp [multiplyLoop, Gf256.mulLow]
  | succ shifts ih =>
    rw [multiplyLoop]
    split
    · rename_i none
      have product_zero : Gf256.mulLow left 0 (shifts + 1) = 0 :=
        Gf256.Additive.zero (f := fun right => Gf256.mulLow left right (shifts + 1))
          fun a b => Gf256.mulLow_xor_right left a b (shifts + 1)
      rw [none, product_zero]
      exact BitVec.xor_zero.symm
    · rw [ih, mulLow_succ_shift, shiftReduced_eq, ← BitVec.xor_assoc]
      congr 1
      simp only [low_bit]
      split <;> simp

/-! ### `FieldElement` -/

namespace FieldElement

def multiply (left right : Byte) : Byte := multiplyLoop 8 left right 0

def power (value exponent : Byte) : Byte := powerLoop multiply 8 value exponent 1

def divide (numerator denominator : Byte) : MultiDeviceResult Byte :=
  if denominator = 0 then .error .invalidSentinelShareEncoding
  else if numerator = 0 then .ok 0
  else .ok (multiply numerator (power denominator 254))

theorem multiply_eq (left right : Byte) : multiply left right = Gf256.mulBits left right := by
  rw [multiply, multiplyLoop_eq]
  exact BitVec.zero_xor

/-- The product is that of the field. -/
theorem mk_multiply (left right : Byte) :
    (⟨multiply left right⟩ : Gf256) = ⟨left⟩ * ⟨right⟩ := by
  rw [multiply_eq]
  rfl

theorem low_bit_mod : ∀ exponent : Byte, (exponent &&& 1 ≠ 0) ↔ exponent.toNat % 2 = 1 := by
  decide +kernel

/-- The loop multiplies the result by the power that is left. -/
theorem mk_powerLoop (shifts : Nat) (value exponent result : Byte)
    (small : exponent.toNat < 2 ^ shifts) :
    (⟨powerLoop multiply shifts value exponent result⟩ : Gf256) =
      ⟨result⟩ * ⟨value⟩ ^ exponent.toNat := by
  induction shifts generalizing value exponent result with
  | zero =>
    have none : exponent.toNat = 0 := by omega
    rw [powerLoop, none, pow_zero, mul_one]
  | succ shifts ih =>
    have half : (exponent >>> 1).toNat = exponent.toNat / 2 := by
      rw [BitVec.toNat_ushiftRight, Nat.shiftRight_one]
    rw [powerLoop]
    split
    · rename_i none
      simp [none]
    · rw [ih _ _ _ (by omega), half, mk_multiply, ← pow_two, ← pow_mul]
      split
      · rename_i odd
        have whole : exponent.toNat = 2 * (exponent.toNat / 2) + 1 := by
          have := (low_bit_mod exponent).mp odd
          omega
        rw [mk_multiply, mul_assoc, ← pow_succ', ← whole]
      · rename_i even
        have whole : exponent.toNat = 2 * (exponent.toNat / 2) := by
          have := (low_bit_mod exponent).not.mp even
          omega
        rw [← whole]

theorem mk_power (value : Byte) : (⟨power value 254⟩ : Gf256) = ⟨value⟩⁻¹ := by
  rw [power, mk_powerLoop 8 value 254 1 (by decide), Gf256.inv_eq_pow]
  exact one_mul _

theorem mk_xor (left right : Byte) : (⟨left ^^^ right⟩ : Gf256) = ⟨left⟩ + ⟨right⟩ := rfl

/-- In characteristic two a difference is a sum. -/
theorem mk_xor_sub (left right : Byte) : (⟨left ^^^ right⟩ : Gf256) = ⟨left⟩ - ⟨right⟩ := by
  rw [sub_eq_add_neg]
  rfl

theorem mk_eq_zero (value : Byte) : (⟨value⟩ : Gf256) = 0 ↔ value = 0 :=
  ⟨congrArg Gf256.bits, Gf256.ext⟩

theorem divide_eq_ok {numerator denominator : Byte} (nonzero : denominator ≠ 0) :
    divide numerator denominator = .ok ((⟨numerator⟩ / ⟨denominator⟩ : Gf256)).bits := by
  rw [divide, if_neg nonzero]
  split
  · rename_i none
    have zero : (⟨numerator⟩ : Gf256) = 0 := (mk_eq_zero numerator).mpr none
    rw [zero, zero_div]
    rfl
  · rw [div_eq_mul_inv, ← mk_power, ← mk_multiply]

end FieldElement

/-- The bytes of the share with index `x` when there is one polynomial for each byte. -/
noncomputable def bytesAt (curves : List (Polynomial Gf256)) (x : Byte) : List Byte :=
  curves.map fun curve => (curve.eval ⟨x⟩).bits

@[simp] theorem length_bytesAt (curves : List (Polynomial Gf256)) (x : Byte) :
    (bytesAt curves x).length = curves.length :=
  List.length_map _

/-! ### `RandomBytes` -/

/-- What each call of `getrandom::fill` does, in the order of the calls. -/
abbrev Entropy := Nat → Except String (Nat → Byte)

def RandomBytes.fill (entropy : Entropy) (call length : Nat) : MultiDeviceResult (List Byte) :=
  match entropy call with
  | .error message => .error (.generateKey message)
  | .ok drawn => .ok ((List.range length).map drawn)

end Nook.Sentinel
