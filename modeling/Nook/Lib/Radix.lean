import Mathlib.Data.Nat.Digits.Lemmas

set_option autoImplicit false

namespace Nook.Lib

/-- The number whose digits, the most significant first, are `digits`. -/
def bigEndian (base : Nat) (digits : List Nat) : Nat :=
  digits.foldl (fun value digit => value * base + digit) 0

variable {base : Nat}

@[simp] theorem bigEndian_nil : bigEndian base [] = 0 := rfl

@[simp] theorem bigEndian_concat (digits : List Nat) (digit : Nat) :
    bigEndian base (digits ++ [digit]) = bigEndian base digits * base + digit := by
  simp [bigEndian]

theorem bigEndian_eq_ofDigits (digits : List Nat) :
    bigEndian base digits = Nat.ofDigits base digits.reverse := by
  induction digits using List.reverseRecOn with
  | nil => rfl
  | append_singleton digits digit ih =>
    rw [bigEndian_concat, List.reverse_append, List.reverse_singleton, List.singleton_append,
      Nat.ofDigits_cons, ih, Nat.mul_comm base, Nat.add_comm]

/-- Equally many digits of one number are the same. -/
theorem bigEndian_injective (large : 1 < base) {left right : List Nat}
    (length : left.length = right.length) (boundLeft : ∀ digit ∈ left, digit < base)
    (boundRight : ∀ digit ∈ right, digit < base)
    (same : bigEndian base left = bigEndian base right) : left = right := by
  rw [bigEndian_eq_ofDigits, bigEndian_eq_ofDigits] at same
  apply List.reverse_injective
  apply Nat.ofDigits_inj_of_len_eq large _ _ _ same
  · simpa using length
  · simpa using boundLeft
  · simpa using boundRight

/-! ### A bit buffer of fixed width -/

section Buffer

variable {width : Nat} (bits count : Nat)

theorem toNat_shift_in (buffer digit : BitVec width) (small : digit.toNat < 2 ^ count)
    (fits : count ≤ width) :
    (buffer <<< count ||| digit).toNat = buffer.toNat * 2 ^ count % 2 ^ width + digit.toNat := by
  have apart : 2 ^ count ∣ buffer.toNat * 2 ^ count % 2 ^ width := by
    apply (Nat.dvd_mod_iff (Nat.pow_dvd_pow 2 fits)).mpr
    exact Nat.dvd_mul_left _ _
  obtain ⟨high, shifted⟩ := apart
  rw [BitVec.toNat_or, BitVec.toNat_shiftLeft, Nat.shiftLeft_eq, shifted, Nat.mul_comm,
    ← Nat.shiftLeft_eq, Nat.shiftLeft_add_eq_or_of_lt small]

/-- Shifting bits in keeps the low bits, if there is room for all of them. -/
theorem low_bits_shift_in (buffer digit : BitVec width) (small : digit.toNat < 2 ^ count)
    (fits : bits + count ≤ width) :
    (buffer <<< count ||| digit).toNat % 2 ^ (bits + count) =
      buffer.toNat % 2 ^ bits * 2 ^ count + digit.toNat := by
  have low : buffer.toNat * 2 ^ count % 2 ^ width % 2 ^ (bits + count) =
      buffer.toNat % 2 ^ bits * 2 ^ count := by
    rw [Nat.mod_mod_of_dvd _ (Nat.pow_dvd_pow 2 fits), Nat.pow_add, Nat.mul_mod_mul_right]
  have below : buffer.toNat % 2 ^ bits * 2 ^ count + digit.toNat < 2 ^ (bits + count) := by
    have bound := Nat.mod_lt buffer.toNat (Nat.two_pow_pos bits)
    calc buffer.toNat % 2 ^ bits * 2 ^ count + digit.toNat
        < (buffer.toNat % 2 ^ bits + 1) * 2 ^ count := by rw [Nat.add_mul, Nat.one_mul]; omega
      _ ≤ 2 ^ bits * 2 ^ count := Nat.mul_le_mul_right _ bound
      _ = 2 ^ (bits + count) := (Nat.pow_add ..).symm
  have digitBelow : digit.toNat < 2 ^ (bits + count) :=
    Nat.lt_of_lt_of_le small (Nat.pow_le_pow_right (by decide) (by omega))
  rw [toNat_shift_in count buffer digit small (by omega), Nat.add_mod, low, Nat.mod_eq_of_lt digitBelow,
    Nat.mod_eq_of_lt below]

/-- A buffer that holds only its low bits takes more of them in exactly. -/
theorem toNat_shift_in_low (buffer digit : BitVec width) (small : digit.toNat < 2 ^ count)
    (fits : bits + count ≤ width) (held : buffer.toNat < 2 ^ bits) :
    (buffer <<< count ||| digit).toNat = buffer.toNat * 2 ^ count + digit.toNat := by
  have room : buffer.toNat * 2 ^ count < 2 ^ width :=
    calc buffer.toNat * 2 ^ count < 2 ^ bits * 2 ^ count :=
          Nat.mul_lt_mul_of_pos_right held (Nat.two_pow_pos count)
      _ = 2 ^ (bits + count) := (Nat.pow_add ..).symm
      _ ≤ 2 ^ width := Nat.pow_le_pow_right (by decide) fits
  rw [toNat_shift_in count buffer digit small (by omega), Nat.mod_eq_of_lt room]

/-- The low bits are the ones shifted out of them, followed by the ones left. -/
theorem low_bits_shift_out (buffer : BitVec width) :
    buffer.toNat % 2 ^ (bits + count) =
      (buffer >>> bits).toNat % 2 ^ count * 2 ^ bits + buffer.toNat % 2 ^ bits := by
  rw [BitVec.toNat_ushiftRight, Nat.shiftRight_eq_div_pow, Nat.pow_add, Nat.mod_mul, Nat.add_comm,
    Nat.mul_comm]

end Buffer

end Nook.Lib
