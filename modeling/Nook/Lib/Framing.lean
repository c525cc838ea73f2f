import Nook.Lib.Utf8

set_option autoImplicit false

namespace Nook.Lib

/-! ### Byte strings behind their length -/

theorem toDigits_ten_injective : Function.Injective (Nat.toDigits 10) := by
  intro left right same
  have value := Nat.ofDigitChars_ten_toDigits (n := left)
  rw [same, Nat.ofDigitChars_ten_toDigits] at value
  exact value.symm

/-- The decimal digits of a number, as bytes. -/
def decimalBytes (number : Nat) : List UInt8 := utf8Encode (Nat.toDigits 10 number)

theorem decimalBytes_injective : Function.Injective decimalBytes :=
  fun _ _ same => toDigits_ten_injective (utf8Encode_injective same)

theorem colon_not_mem_decimalBytes (number : Nat) : (0x3a : UInt8) ∉ decimalBytes number := by
  have digit : ∀ char ∈ Nat.toDigits 10 number, 48 ≤ char.toNat ∧ char.toNat ≤ 57 := by
    intro char member
    have own := Nat.isDigit_of_mem_toDigits (by decide) (by decide) member
    rw [Char.isDigit_iff_toNat] at own
    exact own
  have ascii : ∀ char ∈ Nat.toDigits 10 number, char.toNat < 128 := by
    intro char member
    have own := digit char member
    omega
  intro member
  unfold decimalBytes at member
  rw [utf8Encode_ascii ascii] at member
  obtain ⟨char, inside, same⟩ := List.mem_map.mp member
  have own := digit char inside
  have value := congrArg UInt8.toNat same
  have small : char.toNat < UInt8.size := Nat.lt_trans (ascii char inside) (by decide)
  rw [UInt8.toNat_ofNat_of_lt' small] at value
  have colon : (0x3a : UInt8).toNat = 58 := rfl
  omega

/-- A byte string behind its length and a colon, and closed by a zero byte. -/
def frame (payload : List UInt8) : List UInt8 :=
  decimalBytes payload.length ++ 0x3a :: (payload ++ [0])

/-- Lists that differ at a place of their heads differ. -/
theorem append_ne_append {α : Type} {head head' rest rest' : List α} (place : Nat)
    (inside : place < head.length) (inside' : place < head'.length)
    (differs : head[place]? ≠ head'[place]?) : head ++ rest ≠ head' ++ rest' := by
  intro same
  have one := congrArg (·[place]?) same
  rw [List.getElem?_append_left inside, List.getElem?_append_left inside'] at one
  exact differs one

/-- Lists are cut at the first of a separator in one way only. -/
theorem append_cons_inj_of_notMem_left {α : Type} [DecidableEq α] {separator : α}
    {left right rest rest' : List α} (absent : separator ∉ left) (absent' : separator ∉ right)
    (same : left ++ separator :: rest = right ++ separator :: rest') :
    left = right ∧ rest = rest' := by
  have before : ∀ list tail : List α, separator ∉ list →
      (list ++ separator :: tail).takeWhile (· != separator) = list := by
    intro list tail absent
    have passes : ∀ a ∈ list, (a != separator) = true := by
      intro a member
      rw [bne_iff_ne]
      rintro rfl
      exact absent member
    rw [List.takeWhile_append_of_pos passes]
    simp
  have equal : left = right := by
    rw [← before left rest absent, same, before right rest' absent']
  rw [equal] at same
  exact ⟨equal, (List.cons.inj (List.append_cancel_left same)).2⟩

/-- What follows a frame does not change how it is read. -/
theorem frame_append_inj {left right rest rest' : List UInt8}
    (same : frame left ++ rest = frame right ++ rest') : left = right ∧ rest = rest' := by
  unfold frame at same
  rw [List.append_assoc, List.append_assoc, List.cons_append, List.cons_append] at same
  obtain ⟨digits, tail⟩ := append_cons_inj_of_notMem_left
    (colon_not_mem_decimalBytes left.length) (colon_not_mem_decimalBytes right.length) same
  have length := decimalBytes_injective digits
  rw [List.append_assoc, List.append_assoc] at tail
  have parts := List.append_inj tail length
  exact ⟨parts.1, List.cons_inj_right 0 |>.mp parts.2⟩

theorem frame_ne_nil (payload : List UInt8) : frame payload ≠ [] := by
  simp [frame]

/-- Frames one behind the other are read in one way only. -/
theorem flatMap_frame_injective : Function.Injective fun payloads => List.flatMap frame payloads := by
  intro left
  induction left with
  | nil =>
    intro right same
    cases right with
    | nil => rfl
    | cons head tail =>
      have empty := (List.append_eq_nil_iff.mp (same.symm : frame head ++ tail.flatMap frame = [])).1
      exact absurd empty (frame_ne_nil head)
  | cons first rest ih =>
    intro right same
    cases right with
    | nil =>
      have empty := (List.append_eq_nil_iff.mp (same : frame first ++ rest.flatMap frame = [])).1
      exact absurd empty (frame_ne_nil first)
    | cons head tail =>
      have parts := frame_append_inj (same : frame first ++ rest.flatMap frame =
        frame head ++ tail.flatMap frame)
      rw [parts.1, ih parts.2]

end Nook.Lib
