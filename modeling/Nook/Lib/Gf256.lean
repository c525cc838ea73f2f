import Mathlib.FieldTheory.Finite.Basic
import Mathlib.Tactic.Ring
import Mathlib.Tactic.Abel

set_option autoImplicit false

namespace Nook.Lib

/-- A polynomial over the field of two elements of degree below eight, one bit a coefficient,
modulo x⁸ + x⁴ + x³ + x + 1. -/
structure Gf256 where
  bits : BitVec 8
  deriving DecidableEq

namespace Gf256

/-! ### Multiplication of the bits -/

/-- The product with x. -/
def double (a : BitVec 8) : BitVec 8 := (a <<< 1) ^^^ (if a.msb then 0x1b else 0)

/-- The sum of the products with the lowest bits of the right factor. -/
def mulLow (a b : BitVec 8) : Nat → BitVec 8
  | 0 => 0
  | count + 1 => mulLow a b count ^^^ (if b.getLsbD count then double^[count] a else 0)

def mulBits (a b : BitVec 8) : BitVec 8 := mulLow a b 8

/-- The 254th power. -/
def invBits (a : BitVec 8) : BitVec 8 :=
  let square := fun b => mulBits b b
  let a2 := square a
  let a4 := square a2
  let a8 := square a4
  let a16 := square a8
  let a32 := square a16
  let a64 := square a32
  mulBits a2 (mulBits a4 (mulBits a8 (mulBits a16 (mulBits a32 (mulBits a64 (square a64))))))

theorem xor_interchange (a b c d : BitVec 8) :
    (a ^^^ b) ^^^ (c ^^^ d) = (a ^^^ c) ^^^ (b ^^^ d) := by
  ac_rfl

/-- A term that is there for the sum of two bits. -/
theorem ite_xor (p q : Bool) (a : BitVec 8) : (if (p ^^ q) = true then a else 0) =
    (if p = true then a else 0) ^^^ (if q = true then a else 0) := by
  cases p <;> cases q <;> simp

theorem double_xor (a b : BitVec 8) : double (a ^^^ b) = double a ^^^ double b := by
  unfold double
  rw [BitVec.shiftLeft_xor_distrib, BitVec.msb_xor, ite_xor, xor_interchange]

theorem iterate_double_xor (count : Nat) (a b : BitVec 8) :
    double^[count] (a ^^^ b) = double^[count] a ^^^ double^[count] b := by
  induction count generalizing a b with
  | zero => rfl
  | succ count ih => simp only [Function.iterate_succ_apply, double_xor, ih]

theorem mulLow_xor_left (a b c : BitVec 8) (count : Nat) :
    mulLow (a ^^^ b) c count = mulLow a c count ^^^ mulLow b c count := by
  induction count with
  | zero => simp [mulLow]
  | succ count ih =>
    by_cases set : c.getLsbD count = true
    · simp only [mulLow, ih, iterate_double_xor, if_pos set]
      exact xor_interchange _ _ _ _
    · simp [mulLow, ih, set]

theorem mulLow_xor_right (a b c : BitVec 8) (count : Nat) :
    mulLow a (b ^^^ c) count = mulLow a b count ^^^ mulLow a c count := by
  induction count with
  | zero => simp [mulLow]
  | succ count ih =>
    simp only [mulLow, ih, BitVec.getLsbD_xor, ite_xor]
    exact xor_interchange _ _ _ _

theorem mulBits_xor_left (a b c : BitVec 8) :
    mulBits (a ^^^ b) c = mulBits a c ^^^ mulBits b c :=
  mulLow_xor_left a b c 8

theorem mulBits_xor_right (a b c : BitVec 8) :
    mulBits a (b ^^^ c) = mulBits a b ^^^ mulBits a c :=
  mulLow_xor_right a b c 8

/-! ### Additive functions agree when they agree on the powers of x -/

/-- A function that keeps sums. -/
def Additive (f : BitVec 8 → BitVec 8) : Prop := ∀ a b, f (a ^^^ b) = f a ^^^ f b

theorem Additive.zero {f : BitVec 8 → BitVec 8} (additive : Additive f) : f 0 = 0 := by
  have doubled := additive 0 0
  rw [BitVec.xor_self, BitVec.xor_self] at doubled
  exact doubled

def lowBits (a : BitVec 8) : Nat → BitVec 8
  | 0 => 0
  | count + 1 => lowBits a count ^^^ (if a.getLsbD count then BitVec.twoPow 8 count else 0)

/-- The facts about bytes and powers of x that are checked one by one. -/
structure CheckedBytes : Prop where
  lowBits : ∀ a : BitVec 8, lowBits a 8 = a
  comm : ∀ first second : Fin 8,
    mulBits (BitVec.twoPow 8 first) (BitVec.twoPow 8 second) =
      mulBits (BitVec.twoPow 8 second) (BitVec.twoPow 8 first)
  assoc : ∀ first second third : Fin 8,
    mulBits (mulBits (BitVec.twoPow 8 first) (BitVec.twoPow 8 second)) (BitVec.twoPow 8 third) =
      mulBits (BitVec.twoPow 8 first) (mulBits (BitVec.twoPow 8 second) (BitVec.twoPow 8 third))
  one : ∀ a : BitVec 8, mulBits a 1 = a
  inv : ∀ a : BitVec 8, a = 0 ∨ mulBits a (invBits a) = 1

theorem checkedBytes : CheckedBytes := by
  constructor <;> decide +kernel

theorem Additive.ext {f g : BitVec 8 → BitVec 8} (first : Additive f) (second : Additive g)
    (agree : ∀ index : Fin 8, f (BitVec.twoPow 8 index) = g (BitVec.twoPow 8 index)) (a : BitVec 8) :
    f a = g a := by
  have low : ∀ count ≤ 8, f (lowBits a count) = g (lowBits a count) := by
    intro count
    induction count with
    | zero => exact fun _ => first.zero.trans second.zero.symm
    | succ count ih =>
      intro bound
      simp only [lowBits]
      rw [first, second, ih (by omega)]
      by_cases set : a.getLsbD count = true
      · rw [if_pos set, agree ⟨count, by omega⟩]
      · rw [if_neg set, first.zero, second.zero]
  rw [← CheckedBytes.lowBits checkedBytes a]
  exact low 8 le_rfl

theorem additive_mulBits_left (b : BitVec 8) : Additive fun a => mulBits a b :=
  fun a c => mulBits_xor_left a c b

theorem additive_mulBits_right (a : BitVec 8) : Additive fun b => mulBits a b :=
  mulBits_xor_right a

theorem Additive.comp {f g : BitVec 8 → BitVec 8} (first : Additive f) (second : Additive g) :
    Additive fun a => f (g a) := by
  intro a b
  show f (g (a ^^^ b)) = _
  rw [second, first]

theorem mulBits_comm (a b : BitVec 8) : mulBits a b = mulBits b a := by
  apply (additive_mulBits_left b).ext (additive_mulBits_right b)
  intro first
  exact (additive_mulBits_right _).ext (additive_mulBits_left _)
    (CheckedBytes.comm checkedBytes first) b

theorem mulBits_assoc (a b c : BitVec 8) : mulBits (mulBits a b) c = mulBits a (mulBits b c) := by
  apply ((additive_mulBits_left c).comp (additive_mulBits_left b)).ext (additive_mulBits_left _)
  intro first
  apply ((additive_mulBits_left c).comp (additive_mulBits_right _)).ext
    ((additive_mulBits_right _).comp (additive_mulBits_left c))
  intro second
  exact (additive_mulBits_right _).ext ((additive_mulBits_right _).comp (additive_mulBits_right _))
    (CheckedBytes.assoc checkedBytes first second) c

/-! ### The field -/

instance : Zero Gf256 := ⟨⟨0⟩⟩
instance : One Gf256 := ⟨⟨1⟩⟩
instance : Add Gf256 := ⟨fun a b => ⟨a.bits ^^^ b.bits⟩⟩
instance : Neg Gf256 := ⟨id⟩
instance : Mul Gf256 := ⟨fun a b => ⟨mulBits a.bits b.bits⟩⟩
instance : Inv Gf256 := ⟨fun a => ⟨invBits a.bits⟩⟩

@[ext] theorem ext {a b : Gf256} (same : a.bits = b.bits) : a = b := by
  cases a
  cases b
  exact congrArg mk same

@[simp] theorem bits_zero : (0 : Gf256).bits = 0 := rfl
@[simp] theorem bits_one : (1 : Gf256).bits = 1 := rfl
@[simp] theorem bits_add (a b : Gf256) : (a + b).bits = a.bits ^^^ b.bits := rfl
@[simp] theorem bits_neg (a : Gf256) : (-a).bits = a.bits := rfl
@[simp] theorem bits_mul (a b : Gf256) : (a * b).bits = mulBits a.bits b.bits := rfl

instance : CommRing Gf256 where
  add_assoc a b c := Gf256.ext (BitVec.xor_assoc _ _ _)
  zero_add a := Gf256.ext (by simp)
  add_zero a := Gf256.ext (by simp)
  add_comm a b := Gf256.ext (BitVec.xor_comm _ _)
  neg_add_cancel a := Gf256.ext (by simp)
  nsmul := nsmulRec
  zsmul := zsmulRec
  left_distrib a b c := Gf256.ext (mulBits_xor_right _ _ _)
  right_distrib a b c := Gf256.ext (mulBits_xor_left _ _ _)
  zero_mul a := Gf256.ext (additive_mulBits_left a.bits).zero
  mul_zero a := Gf256.ext (additive_mulBits_right a.bits).zero
  mul_assoc a b c := Gf256.ext (mulBits_assoc _ _ _)
  one_mul a := Gf256.ext ((mulBits_comm _ _).trans (CheckedBytes.one checkedBytes a.bits))
  mul_one a := Gf256.ext (CheckedBytes.one checkedBytes a.bits)
  mul_comm a b := Gf256.ext (mulBits_comm _ _)

instance : Field Gf256 where
  exists_pair_ne := ⟨0, 1, by decide⟩
  mul_inv_cancel a nonzero := by
    rcases CheckedBytes.inv checkedBytes a.bits with zero | one
    · exact absurd (Gf256.ext zero) nonzero
    · exact Gf256.ext one
  inv_zero := by decide +kernel
  nnqsmul := _
  nnqsmul_def := fun _ _ => rfl
  qsmul := _
  qsmul_def := fun _ _ => rfl

theorem inv_eq_pow (a : Gf256) : a⁻¹ = a ^ 254 := by
  let s1 := a * a
  let s2 := s1 * s1
  let s3 := s2 * s2
  let s4 := s3 * s3
  let s5 := s4 * s4
  let s6 := s5 * s5
  show s1 * (s2 * (s3 * (s4 * (s5 * (s6 * (s6 * s6)))))) = a ^ 254
  ring

end Gf256

end Nook.Lib
