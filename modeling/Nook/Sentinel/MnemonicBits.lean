import Nook.Lib.Steps
import Nook.Sentinel.Mnemonic

set_option autoImplicit false

namespace Nook.Sentinel

open Nook.Auth Nook.EventLog Nook.Lib

namespace MnemonicWords

variable {α : Type}

/-! ### The bits of a list of units -/

theorem wordBit_eq (word position : Nat) :
    wordBit word position = word.testBit (9 - position % 10) := by
  rw [wordBit, Nat.one_shiftLeft, Nat.and_two_pow]
  cases word.testBit (9 - position % 10) <;> simp

theorem byteBit_eq (byte : Byte) (position : Nat) :
    byteBit byte position = byte.getLsbD (7 - position % 8) := by
  have cases : ∀ (byte : Byte) (place : Fin 8),
      decide (byte &&& (1 <<< (place : Nat)) ≠ 0) = byte.getLsbD place := by
    decide +kernel
  exact cases byte ⟨7 - position % 8, by omega⟩

theorem wordBit_markWord (word position other : Nat) : wordBit (markWord word position) other =
    (wordBit word other || decide (position % 10 = other % 10)) := by
  rw [wordBit_eq, wordBit_eq, markWord, Nat.one_shiftLeft, Nat.testBit_or, Nat.testBit_two_pow]
  congr 2
  apply propext
  omega

theorem byteBit_markByte (byte : Byte) (position other : Nat) :
    byteBit (markByte byte position) other =
      (byteBit byte other || decide (position % 8 = other % 8)) := by
  have cases : ∀ place target : Fin 8, (1 <<< (place : Nat) : Byte).getLsbD target =
      decide (place = target) := by
    decide +kernel
  have marked := cases ⟨7 - position % 8, by omega⟩ ⟨7 - other % 8, by omega⟩
  rw [byteBit_eq, byteBit_eq, markByte, BitVec.getLsbD_or, marked]
  congr 2
  apply propext
  simp only [Fin.mk.injEq]
  omega

/-- The bit at a position of the whole list. -/
def bitOf (width : Nat) (test : α → Nat → Bool) (units : List α) (position : Nat) : Bool :=
  match units[position / width]? with
  | none => false
  | some unit => test unit position

theorem read_eq {width : Nat} {test : α → Nat → Bool} {units : List α} {position : Nat}
    (inside : position / width < units.length) :
    (do pure (test (← unitAt width units position) position)) =
      (.ok (bitOf width test units position) : MultiDeviceResult Bool) := by
  rw [unitAt, bitOf, List.getElem?_eq_getElem inside]
  rfl

theorem bitOf_replicate {width : Nat} {test : α → Nat → Bool} {zero : α}
    (clear : ∀ position, test zero position = false) (count position : Nat) :
    bitOf width test (List.replicate count zero) position = false := by
  rw [bitOf, List.getElem?_replicate]
  split
  · rfl
  · rename_i unit found
    split at found
    · cases found
      exact clear position
    · cases found

theorem bitOf_set {width : Nat} {test : α → Nat → Bool} {mark : α → Nat → α}
    (marks : ∀ unit position other, test (mark unit position) other =
      (test unit other || decide (position % width = other % width)))
    {units : List α} {position : Nat} {unit : α} (found : units[position / width]? = some unit)
    (other : Nat) : bitOf width test (units.set (position / width) (mark unit position)) other =
      (bitOf width test units other || decide (other = position)) := by
  have inside := (List.getElem?_eq_some_iff.mp found).1
  by_cases here : other / width = position / width
  · have same : (position % width = other % width) ↔ other = position := by
      constructor
      · intro rest
        rw [← Nat.div_add_mod other width, ← Nat.div_add_mod position width, here, rest]
      · rintro rfl
        rfl
    rw [bitOf, bitOf, here, found, List.getElem?_set_self inside]
    simp only [marks, same]
  · have apart : other ≠ position := fun same => here (by rw [same])
    rw [bitOf, bitOf, List.getElem?_set_ne (Ne.symm here)]
    simp [apart]

theorem copyBits_eq {width offset count : Nat} {test : α → Nat → Bool} {mark : α → Nat → α}
    (marks : ∀ unit position other, test (mark unit position) other =
      (test unit other || decide (position % width = other % width)))
    {isSet : Nat → MultiDeviceResult Bool} {source : Nat → Bool} {units : List α}
    (reads : ∀ bit < count, isSet bit = .ok (source bit))
    (fits : offset + count ≤ width * units.length) :
    ∃ result, copyBits width offset count mark isSet units = .ok result ∧
      result.length = units.length ∧
      ∀ position, bitOf width test result position = (bitOf width test units position ||
        (decide (offset ≤ position ∧ position < offset + count) && source (position - offset))) := by
  let Copied : List Nat → List α → Prop := fun before state => state.length = units.length ∧
    ∀ position, bitOf width test state position = (bitOf width test units position ||
      before.any fun bit => decide (position = offset + bit) && source bit)
  have copied : ∀ before bit state, bit ∈ List.range count → Copied before state →
      ∃ next, copyBit width offset mark isSet state bit = .ok next ∧ Copied (before ++ [bit]) next := by
    rintro before bit state member ⟨length, bits⟩
    have bound := List.mem_range.mp member
    have inside : (offset + bit) / width < state.length := by
      rw [length]
      apply Nat.div_lt_of_lt_mul
      omega
    have found := List.getElem?_eq_getElem inside
    cases set : source bit with
    | false =>
      refine ⟨state, by rw [copyBit, reads bit bound, set]; rfl, length, fun position => ?_⟩
      rw [bits position]
      simp [set]
    | true =>
      refine ⟨state.set ((offset + bit) / width)
        (mark state[(offset + bit) / width] (offset + bit)), ?_, by simpa using length,
        fun position => ?_⟩
      · rw [copyBit, reads bit bound, set]
        show (unitAt width state (offset + bit) >>= _) = _
        rw [unitAt, found]
        rfl
      · rw [bitOf_set marks found, bits position]
        simp [set, Bool.or_assoc]
  obtain ⟨result, folded, length, bits⟩ := foldlM_rule Copied (List.range count) units
    ⟨rfl, by simp⟩ copied
  refine ⟨result, folded, length, fun position => ?_⟩
  rw [bits position]
  congr 1
  rw [Bool.eq_iff_iff]
  simp only [List.any_eq_true, List.mem_range, Bool.and_eq_true, decide_eq_true_eq]
  constructor
  · rintro ⟨bit, bound, rfl, set⟩
    exact ⟨by omega, by rwa [Nat.add_sub_cancel_left]⟩
  · rintro ⟨bounds, set⟩
    exact ⟨position - offset, by omega, by omega, set⟩

/-- The bits of a list determine it when those of one unit do. -/
theorem eq_of_bits {width : Nat} {test : α → Nat → Bool} {P : α → Prop} (positive : 0 < width)
    (periodic : ∀ unit position, test unit position = test unit (position % width))
    (separates : ∀ a b, P a → P b → (∀ place < width, test a place = test b place) → a = b)
    {left right : List α} (length : left.length = right.length) (onLeft : ∀ a ∈ left, P a)
    (onRight : ∀ a ∈ right, P a)
    (bits : ∀ position < width * left.length,
      bitOf width test left position = bitOf width test right position) : left = right := by
  apply List.ext_getElem length
  intro index inLeft inRight
  apply separates _ _ (onLeft _ (List.getElem_mem inLeft)) (onRight _ (List.getElem_mem inRight))
  intro place bound
  have unit : (width * index + place) / width = index := by
    rw [Nat.mul_add_div positive, Nat.div_eq_of_lt bound, Nat.add_zero]
  have rest : (width * index + place) % width = place := by
    rw [Nat.mul_add_mod, Nat.mod_eq_of_lt bound]
  have inside : width * index + place < width * left.length := by
    have next : width * (index + 1) ≤ width * left.length := Nat.mul_le_mul_left width inLeft
    rw [Nat.mul_add, Nat.mul_one] at next
    omega
  have same := bits (width * index + place) inside
  simp only [bitOf, unit, List.getElem?_eq_getElem inLeft, List.getElem?_eq_getElem inRight] at same
  rwa [periodic left[index], periodic right[index], rest] at same

theorem wordBit_periodic (word position : Nat) :
    wordBit word position = wordBit word (position % 10) := by
  rw [wordBit_eq, wordBit_eq, Nat.mod_mod]

theorem byteBit_periodic (byte : Byte) (position : Nat) :
    byteBit byte position = byteBit byte (position % 8) := by
  rw [byteBit_eq, byteBit_eq, Nat.mod_mod]

theorem word_eq_of_bits (a b : Nat) (boundA : a < 1024) (boundB : b < 1024)
    (bits : ∀ place < 10, wordBit a place = wordBit b place) : a = b := by
  apply Nat.eq_of_testBit_eq
  intro place
  by_cases inside : place < 10
  · have same := bits (9 - place) (by omega)
    rwa [wordBit_eq, wordBit_eq, Nat.mod_eq_of_lt (by omega), show 9 - (9 - place) = place by omega]
      at same
  · have large : 1024 ≤ 2 ^ place := Nat.pow_le_pow_right (by decide : 0 < 2) (by omega : 10 ≤ place)
    rw [Nat.testBit_lt_two_pow (by omega), Nat.testBit_lt_two_pow (by omega)]

theorem byte_eq_of_bits (a b : Byte) (bits : ∀ place < 8, byteBit a place = byteBit b place) :
    a = b := by
  apply BitVec.eq_of_getLsbD_eq
  intro place inside
  have same := bits (7 - place) (by omega)
  rwa [byteBit_eq, byteBit_eq, Nat.mod_eq_of_lt (by omega), show 7 - (7 - place) = place by omega]
    at same

theorem forM_eq_ok {ε α : Type} {step : α → Except ε Unit} {list : List α} :
    list.forM step = .ok () ↔ ∀ a ∈ list, step a = .ok () := by
  induction list with
  | nil => simp [List.forM_nil]; rfl
  | cons head tail ih =>
    show (step head >>= fun _ => tail.forM step) = _ ↔ _
    rw [bind_eq_ok, List.forall_mem_cons, ← ih]
    constructor
    · rintro ⟨_, first, rest⟩
      exact ⟨first, rest⟩
    · rintro ⟨first, rest⟩
      exact ⟨(), first, rest⟩

theorem checkPadding_eq_ok {words : List Nat} {padding : Nat} (fits : padding ≤ 10 * words.length) :
    checkPadding words padding = .ok () ↔ ∀ bit < padding, bitOf 10 wordBit words bit = false := by
  rw [checkPadding, forM_eq_ok]
  simp only [List.mem_range]
  apply forall_congr'
  intro bit
  apply forall_congr'
  intro bound
  have inside : bit / 10 < words.length := Nat.div_lt_of_lt_mul (by omega)
  rw [unitAt, bitOf, List.getElem?_eq_getElem inside]
  exact refuse_eq_ok _ _

/-! ### The value of a share in words and in bytes -/

theorem markWord_lt {word : Nat} (small : word < 1024) (position : Nat) :
    markWord word position < 1024 := by
  have place : 1 <<< (9 - position % 10) < 2 ^ 10 := by
    rw [Nat.one_shiftLeft]
    exact Nat.pow_lt_pow_right (by decide) (by omega)
  exact Nat.or_lt_two_pow small place

theorem copyBit_lt {offset bit : Nat} {isSet : Nat → MultiDeviceResult Bool}
    {state next : List Nat} (small : ∀ unit ∈ state, unit < 1024)
    (stepped : copyBit 10 offset markWord isSet state bit = .ok next) :
    ∀ unit ∈ next, unit < 1024 := by
  obtain ⟨set, _, stepped⟩ := bind_eq_ok.mp stepped
  cases set with
  | false =>
    cases stepped
    exact small
  | true =>
    obtain ⟨unit, read, stepped⟩ := bind_eq_ok.mp stepped
    cases stepped
    have there : unit ∈ state := by
      rw [unitAt] at read
      split at read
      · cases read
      · rename_i found
        cases read
        exact List.mem_of_getElem? found
    intro other member
    rcases List.mem_or_eq_of_mem_set member with old | rfl
    · exact small other old
    · exact markWord_lt (small unit there) _

theorem copyBits_lt {offset count : Nat} {isSet : Nat → MultiDeviceResult Bool}
    {units result : List Nat} (small : ∀ unit ∈ units, unit < 1024)
    (copied : copyBits 10 offset count markWord isSet units = .ok result) :
    ∀ unit ∈ result, unit < 1024 := by
  have keeps : ∀ bit ∈ List.range count, ∀ state next : List Nat, (∀ unit ∈ state, unit < 1024) →
      copyBit 10 offset markWord isSet state bit = .ok next → ∀ unit ∈ next, unit < 1024 := by
    intro bit _ state next holds stepped
    exact copyBit_lt holds stepped
  exact foldlM_keeps keeps small copied

/-- The 26 words of a 32-byte value: its bits behind four zero bits. -/
theorem bytesToWords_eq {bytes : List Byte} (size : bytes.length = 32) :
    ∃ words, bytesToWords bytes = .ok words ∧ words.length = 26 ∧ (∀ word ∈ words, word < 1024) ∧
      ∀ position < 260, bitOf 10 wordBit words position =
        (decide (4 ≤ position) && bitOf 8 byteBit bytes (position - 4)) := by
  have reads : ∀ bit < 256, (do pure (byteBit (← unitAt 8 bytes bit) bit)) =
      (.ok (bitOf 8 byteBit bytes bit) : MultiDeviceResult Bool) := by
    intro bit bound
    apply read_eq
    rw [size]
    omega
  have fits : 4 + 256 ≤ 10 * (List.replicate 26 0).length := by simp
  obtain ⟨words, copied, length, bits⟩ := copyBits_eq wordBit_markWord reads fits
  have converted : bytesToWords bytes = .ok words := by
    rw [bytesToWords, size]
    exact copied
  refine ⟨words, converted, by simpa using length, copyBits_lt (by simp) copied, ?_⟩
  intro position bound
  rw [bits position, bitOf_replicate (by simp [wordBit])]
  have inside : position < 4 + 256 := by omega
  simp [inside]

/-- The 32 bytes of 26 words. -/
theorem wordsToBytes_eq {words : List Nat} (size : words.length = 26)
    (small : ∀ word ∈ words, word < 1024)
    (padding : ∀ bit < 4, bitOf 10 wordBit words bit = false) :
    ∃ bytes, wordsToBytes words = .ok bytes ∧ bytes.length = 32 ∧
      ∀ position < 256, bitOf 8 byteBit bytes position = bitOf 10 wordBit words (4 + position) := by
  have reads : ∀ bit < 256, (do pure (wordBit (← unitAt 10 words (4 + bit)) (4 + bit))) =
      (.ok (bitOf 10 wordBit words (4 + bit)) : MultiDeviceResult Bool) := by
    intro bit bound
    apply read_eq
    rw [size]
    omega
  have fits : 0 + 256 ≤ 8 * (List.replicate 32 (0 : Byte)).length := by simp
  obtain ⟨bytes, copied, length, bits⟩ := copyBits_eq byteBit_markByte reads fits
  have checked : checkPadding words 4 = .ok () := (checkPadding_eq_ok (by omega)).mpr padding
  have large : words.any (· > 1023) = false := by
    rw [List.any_eq_false]
    intro word member
    have := small word member
    simp
    omega
  have converted : wordsToBytes words = .ok bytes := by
    rw [wordsToBytes, size]
    simp only [large]
    show (checkPadding words 4 >>= _) = _
    rw [checked]
    exact copied
  refine ⟨bytes, converted, by simpa using length, ?_⟩
  intro position bound
  rw [bits position, bitOf_replicate (by simp [byteBit])]
  simp [bound]

/-- Words are accepted only when they fit and start with zero bits. -/
theorem wordsToBytes_ok {words : List Nat} {bytes : List Byte} (size : words.length = 26)
    (converted : wordsToBytes words = .ok bytes) : (∀ word ∈ words, word < 1024) ∧
      ∀ bit < 4, bitOf 10 wordBit words bit = false := by
  rw [wordsToBytes, size] at converted
  dsimp only at converted
  split at converted
  · cases converted
  · rename_i fits
    obtain ⟨_, checked, _⟩ := bind_eq_ok.mp converted
    refine ⟨?_, (checkPadding_eq_ok (by omega)).mp checked⟩
    intro word member
    by_contra large
    exact fits (.inr (List.any_eq_true.mpr ⟨word, member, by simpa using by omega⟩))

theorem wordsToBytes_bytesToWords {bytes : List Byte} (size : bytes.length = 32)
    {words : List Nat} (converted : bytesToWords bytes = .ok words) :
    wordsToBytes words = .ok bytes := by
  obtain ⟨own, same, length, small, bits⟩ := bytesToWords_eq size
  obtain rfl : own = words := Except.ok.inj (same.symm.trans converted)
  obtain ⟨back, read, backSize, backBits⟩ := wordsToBytes_eq length small (by
    intro bit bound
    rw [bits bit (by omega)]
    simp [bound])
  rw [read]
  congr 1
  apply eq_of_bits (P := fun _ => True) (by decide) byteBit_periodic
    (fun a b _ _ => byte_eq_of_bits a b) (backSize.trans size.symm) (fun _ _ => trivial)
    (fun _ _ => trivial)
  intro position bound
  rw [backSize] at bound
  rw [backBits position bound, bits (4 + position) (by omega)]
  simp

theorem bytesToWords_wordsToBytes {words : List Nat} {bytes : List Byte}
    (length : words.length = 26) (converted : wordsToBytes words = .ok bytes) :
    bytesToWords bytes = .ok words := by
  obtain ⟨small, padding⟩ := wordsToBytes_ok length converted
  obtain ⟨own, same, size, bits⟩ := wordsToBytes_eq length small padding
  obtain rfl : own = bytes := Except.ok.inj (same.symm.trans converted)
  obtain ⟨back, read, backLength, backSmall, backBits⟩ := bytesToWords_eq size
  rw [read]
  congr 1
  apply eq_of_bits (P := (· < 1024)) (by decide) wordBit_periodic word_eq_of_bits
    (backLength.trans length.symm) backSmall small
  intro position bound
  rw [backLength] at bound
  rw [backBits position bound]
  by_cases early : position < 4
  · rw [padding position early]
    simp [early]
  · rw [bits (position - 4) (by omega), show 4 + (position - 4) = position by omega]
    simp [show 4 ≤ position by omega]

end MnemonicWords

end Nook.Sentinel
