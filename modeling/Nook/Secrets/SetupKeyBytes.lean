import Nook.Lib.Radix
import Nook.Lib.Steps
import Nook.Secrets.SetupKey

set_option autoImplicit false

namespace Nook.Secrets

open Nook.EventLog Nook.Lib

namespace Base32SetupKey

/-- The value of a character of the alphabet. -/
def digitValue (character : Char) : Nat :=
  match digit character with
  | .ok value => value.toNat
  | .error _ => 0

/-- The number a text of the alphabet denotes, its bits in their order. -/
def textValue (text : Str) : Nat := bigEndian 32 (text.map digitValue)

def bytesValue (bytes : Bytes) : Nat := bigEndian 256 (bytes.map UInt8.toNat)

theorem digitValue_eq {character : Char} {value : BitVec 32} (read : digit character = .ok value) :
    digitValue character = value.toNat := by
  simp only [digitValue, read]

theorem textValue_concat (text : Str) (character : Char) :
    textValue (text ++ [character]) = textValue text * 32 + digitValue character := by
  simp [textValue]

theorem bytesValue_concat (bytes : Bytes) (byte : UInt8) :
    bytesValue (bytes ++ [byte]) = bytesValue bytes * 256 + byte.toNat := by
  simp [bytesValue]

theorem bytesValue_injective {left right : Bytes} (length : left.length = right.length)
    (same : bytesValue left = bytesValue right) : left = right := by
  have below : ∀ bytes : Bytes, ∀ digit ∈ bytes.map UInt8.toNat, digit < 256 := by
    intro bytes digit member
    obtain ⟨byte, _, rfl⟩ := List.mem_map.mp member
    exact byte.toNat_lt
  apply List.map_injective_iff.mpr (fun _ _ => UInt8.toNat.inj)
  exact bigEndian_injective (by decide) (by simpa using length) (below left) (below right) same

theorem digit_lt {character : Char} {value : BitVec 32} (read : digit character = .ok value) :
    value.toNat < 2 ^ 5 := by
  unfold digit at read
  split at read
  · rename_i letter
    have upper : character.toNat ≤ 'Z'.toNat := letter.2
    cases read
    rw [BitVec.toNat_ofNat]
    apply Nat.lt_of_le_of_lt (Nat.mod_le _ _)
    have last : 'Z'.toNat = 90 := rfl
    have first : 'A'.toNat = 65 := rfl
    omega
  split at read
  · rename_i number
    have upper : character.toNat ≤ '7'.toNat := number.2
    cases read
    rw [BitVec.toNat_ofNat]
    apply Nat.lt_of_le_of_lt (Nat.mod_le _ _)
    have last : '7'.toNat = 55 := rfl
    have first : '2'.toNat = 50 := rfl
    omega
  · cases read

/-! ### The decoder -/

/-- What the decoder keeps of the characters it has read: their number is the bytes
written, followed by the bits left in the buffer. -/
structure Decodes (text : Str) (state : Decoding) : Prop where
  bits_lt : state.bits < 8
  held : state.buffer.toNat < 2 ^ state.bits
  length : 5 * text.length = 8 * state.output.length + state.bits
  value : textValue text = bytesValue state.output * 2 ^ state.bits + state.buffer.toNat

theorem decodes_start : Decodes [] .start where
  bits_lt := by decide
  held := by decide
  length := rfl
  value := rfl

theorem toNat_mask {bits : Nat} (small : bits < 8) (buffer : BitVec 32) :
    (buffer &&& (1 <<< bits - 1)).toNat = buffer.toNat % 2 ^ bits := by
  have mask : ∀ bits < 8, (1 <<< bits - 1 : BitVec 32).toNat = 2 ^ bits - 1 := by decide
  rw [BitVec.toNat_and, mask bits small, Nat.and_two_pow_sub_one_eq_mod]

theorem toNat_byte (buffer : BitVec 32) :
    (UInt8.ofNat (buffer &&& 0xff).toNat).toNat = buffer.toNat % 2 ^ 8 := by
  have mask : (0xff : BitVec 32).toNat = 2 ^ 8 - 1 := rfl
  rw [BitVec.toNat_and, mask, Nat.and_two_pow_sub_one_eq_mod, UInt8.toNat_ofNat', Nat.mod_mod]

theorem Decodes.character {text : Str} {state : Decoding} (decodes : Decodes text state)
    {character : Char} {value : BitVec 32} (read : digit character = .ok value) :
    ∃ next, state.character character = .ok next ∧ Decodes (text ++ [character]) next := by
  have small := digit_lt read
  have bound := decodes.bits_lt
  have length := decodes.length
  have shifted := toNat_shift_in_low state.bits 5 state.buffer value small
    (by omega) decodes.held
  have grown : textValue (text ++ [character]) =
      bytesValue state.output * 2 ^ (state.bits + 5) +
        (state.buffer <<< 5 ||| value).toNat := by
    rw [textValue_concat, decodes.value, digitValue_eq read, shifted, Nat.pow_add]
    ring
  have below : (state.buffer <<< 5 ||| value).toNat < 2 ^ (state.bits + 5) := by
    have held := decodes.held
    rw [shifted, Nat.pow_add]
    calc state.buffer.toNat * 2 ^ 5 + value.toNat
        < (state.buffer.toNat + 1) * 2 ^ 5 := by omega
      _ ≤ 2 ^ state.bits * 2 ^ 5 := Nat.mul_le_mul_right _ held
  simp only [Decoding.character, read]
  by_cases full : 8 ≤ state.bits + 5
  · refine ⟨_, if_pos full, ?_⟩
    generalize state.buffer <<< 5 ||| value = buffer at grown below
    obtain ⟨left, total⟩ : ∃ left, state.bits + 5 = left + 8 := ⟨state.bits + 5 - 8, by omega⟩
    have rest : state.bits + 5 - 8 = left := by omega
    have few : left < 8 := by omega
    have cut := low_bits_shift_out left 8 buffer
    rw [← total, Nat.mod_eq_of_lt below] at cut
    simp only [rest]
    refine ⟨few, ?_, ?_, ?_⟩
    · rw [toNat_mask few]
      exact Nat.mod_lt _ (Nat.two_pow_pos left)
    · simp only [List.length_append, List.length_singleton]
      omega
    · rw [grown, cut, toNat_mask few, bytesValue_concat, toNat_byte, total, Nat.pow_add]
      ring
  · refine ⟨_, if_neg full, ?_, below, ?_, grown⟩
    · show state.bits + 5 < 8
      omega
    · simp only [List.length_append, List.length_singleton]
      omega

/-- A run of the decoder over characters of the alphabet. -/
theorem decodes_text (text : Str) (valid : ∀ character ∈ text, ∃ value, digit character = .ok value) :
    ∃ state, text.foldlM Decoding.character .start = .ok state ∧ Decodes text state := by
  apply foldlM_rule Decodes text .start decodes_start
  intro before character state member decodes
  obtain ⟨value, read⟩ := valid character member
  exact decodes.character read

theorem decode_valid {text : Str} {output : Bytes} (decoded : decode text = .ok output) :
    ∀ character ∈ unpadded text, ∃ value, digit character = .ok value := by
  intro character member
  obtain ⟨state, folded, _⟩ := bind_eq_ok.mp decoded
  obtain ⟨before, next, stepped⟩ := foldlM_step folded member
  obtain ⟨value, read, _⟩ := bind_eq_ok.mp stepped
  exact ⟨value, read⟩

theorem decode_of_decodes {text : Str} {state : Decoding}
    (folded : (unpadded text).foldlM Decoding.character .start = .ok state)
    (filled : state.output ≠ []) : decode text = .ok state.output := by
  unfold decode
  rw [folded]
  have notEmpty : state.output.isEmpty = false := by simpa using filled
  simp only [bind, Except.bind, notEmpty]
  rfl

/-- The decoded bytes are the bits of the text, less the fewer than eight that fill no byte. -/
theorem decode_bits {text : Str} {output : Bytes} (decoded : decode text = .ok output) :
    ∃ rest < 8, ∃ left < 2 ^ rest, 5 * (unpadded text).length = 8 * output.length + rest ∧
      textValue (unpadded text) = bytesValue output * 2 ^ rest + left := by
  obtain ⟨state, folded, decodes⟩ := decodes_text (unpadded text) (decode_valid decoded)
  unfold decode at decoded
  rw [folded] at decoded
  obtain ⟨_, same, decoded⟩ := bind_eq_ok.mp decoded
  cases same
  split at decoded
  · cases decoded
  · cases decoded
    exact ⟨state.bits, decodes.bits_lt, state.buffer.toNat, decodes.held, decodes.length,
      decodes.value⟩

/-! ### Normalization -/

/-- A character that normalization leaves where it is. -/
def IsNormal (character : Char) : Prop :=
  (!isAsciiWhitespace character && character != '-') = true ∧ character.toUpper = character

instance (character : Char) : Decidable (IsNormal character) :=
  inferInstanceAs (Decidable (_ ∧ _))

theorem normalize_of_normal {text : Str} (normal : ∀ character ∈ text, IsNormal character) :
    normalize text = unpadded text := by
  have kept := List.filter_eq_self.mpr fun character member => (normal character member).1
  have upper : text.map Char.toUpper = text.map id :=
    List.map_congr_left fun character member => (normal character member).2
  rw [normalize, kept, upper, List.map_id]

theorem normalize_normal (text : Str) : ∀ character ∈ normalize text, IsNormal character := by
  intro character member
  have inside := (List.rdropWhile_prefix (· == '=') _).subset member
  obtain ⟨typed, kept, rfl⟩ := List.mem_map.mp inside
  refine ⟨?_, Char.toUpper_toUpper_eq_toUpper typed⟩
  by_cases lower : typed.isLower = true
  · have upper : typed.toUpper.isUpper = true := by
      rw [Char.isUpper_toUpper_eq_isAlpha]
      simp [Char.isAlpha, lower]
    generalize typed.toUpper = character at upper
    rw [Bool.and_eq_true, Bool.not_eq_true']
    constructor
    · by_contra space
      simp only [isAsciiWhitespace, Bool.not_eq_false, Bool.or_eq_true, beq_iff_eq] at space
      rcases space with (((rfl | rfl) | rfl) | rfl) | rfl <;> exact absurd upper (by decide)
    · rw [bne_iff_ne]
      rintro rfl
      exact absurd upper (by decide)
  · rw [Char.toUpper_eq_of_not_isLower lower]
    exact (List.mem_filter.mp kept).2

/-- What normalization answers it leaves as it is. -/
theorem normalize_normalize (text : Str) : normalize (normalize text) = normalize text := by
  rw [normalize_of_normal (normalize_normal text)]
  exact List.rdropWhile_idempotent _ _

end Base32SetupKey

/-! ### The encoder -/

namespace MigrationSecretBytes

open Base32SetupKey

/-- Every index below 32 has a symbol, of which the decoder reads the index back. -/
theorem symbol_of_lt (index : BitVec 16) (small : index.toNat < 32) :
    ∃ character, symbol index = .ok character ∧
      digit character = .ok (.ofNat 32 index.toNat) ∧ IsNormal character ∧ character ≠ '=' := by
  have table : ∀ index < 32, ∃ character, ALPHABET[index]? = some character ∧
      digit character = .ok (.ofNat 32 index) ∧ IsNormal character ∧ character ≠ '=' := by
    have rows : ∀ index < 32, ((ALPHABET[index]?).any fun character =>
        decide (digit character = .ok (.ofNat 32 index)) && decide (IsNormal character) &&
          decide (character ≠ '=')) = true := by decide +kernel
    intro index below
    have row := rows index below
    rw [Option.any_eq_true] at row
    obtain ⟨character, found, holds⟩ := row
    simp only [Bool.and_eq_true, decide_eq_true_eq] at holds
    exact ⟨character, found, holds.1.1, holds.1.2, holds.2⟩
  obtain ⟨character, found, holds⟩ := table index.toNat small
  refine ⟨character, ?_, holds⟩
  simp only [symbol, found]

/-- A character that the encoder writes. -/
def IsSymbol (character : Char) : Prop :=
  (∃ value, digit character = .ok value) ∧ IsNormal character ∧ character ≠ '='

/-- The symbol of the five bits of an index. -/
theorem symbol_five (index : BitVec 16) :
    ∃ character, symbol (index &&& 0x1f) = .ok character ∧ IsSymbol character ∧
      digitValue character = index.toNat % 2 ^ 5 := by
  have mask : (0x1f : BitVec 16).toNat = 2 ^ 5 - 1 := rfl
  have low : (index &&& 0x1f).toNat = index.toNat % 2 ^ 5 := by
    rw [BitVec.toNat_and, mask, Nat.and_two_pow_sub_one_eq_mod]
  have small : (index &&& 0x1f).toNat < 32 := by omega
  obtain ⟨character, found, read, normal, filled⟩ := symbol_of_lt _ small
  refine ⟨character, found, ⟨⟨_, read⟩, normal, filled⟩, ?_⟩
  rw [digitValue_eq read, BitVec.toNat_ofNat, low]
  omega

/-- Writing symbols moves bits from the buffer to the text, and leaves fewer than five. -/
theorem writeSymbols_spec (buffer : BitVec 16) (bits : Nat) (output : Str)
    (symbols : ∀ character ∈ output, IsSymbol character) :
    ∃ state, writeSymbols buffer bits output = .ok state ∧ state.buffer = buffer ∧
      state.bits < 5 ∧ (∀ character ∈ state.output, IsSymbol character) ∧
      5 * state.output.length + state.bits = 5 * output.length + bits ∧
      textValue state.output * 2 ^ state.bits + buffer.toNat % 2 ^ state.bits =
        textValue output * 2 ^ bits + buffer.toNat % 2 ^ bits := by
  induction bits using Nat.strong_induction_on generalizing output with
  | h bits ih =>
    by_cases enough : 5 ≤ bits
    · obtain ⟨left, rfl⟩ : ∃ left, bits = left + 5 := ⟨bits - 5, by omega⟩
      obtain ⟨character, found, isSymbol, value⟩ := symbol_five (buffer >>> left)
      obtain ⟨state, ran, same, few, valid, length, total⟩ := ih left (by omega)
        (output ++ [character]) (by
          intro other member
          rcases List.mem_append.mp member with earlier | last
          · exact symbols other earlier
          · rw [List.mem_singleton.mp last]
            exact isSymbol)
      refine ⟨state, ?_, same, few, valid, ?_, ?_⟩
      · rw [writeSymbols, found]
        exact ran
      · simp only [List.length_append, List.length_singleton] at length
        omega
      · rw [total, textValue_concat, value, low_bits_shift_out left 5 buffer,
          Nat.pow_add]
        ring
    · have few : bits < 5 := by omega
      refine ⟨⟨buffer, bits, output⟩, ?_, rfl, few, symbols, rfl, rfl⟩
      unfold writeSymbols
      split
      · omega
      · rfl

/-- What the encoder keeps of the bytes it has read: their number is the text written,
followed by the low bits of the buffer. -/
structure Encodes (bytes : Bytes) (state : Encoding) : Prop where
  bits_lt : state.bits < 5
  symbols : ∀ character ∈ state.output, IsSymbol character
  length : 5 * state.output.length + state.bits = 8 * bytes.length
  value : textValue state.output * 2 ^ state.bits + state.buffer.toNat % 2 ^ state.bits =
    bytesValue bytes

theorem encodes_start : Encodes [] .start where
  bits_lt := by decide
  symbols := by simp [Encoding.start]
  length := rfl
  value := rfl

theorem Encodes.byte {bytes : Bytes} {state : Encoding} (encodes : Encodes bytes state)
    (byte : UInt8) : ∃ next, state.byte byte = .ok next ∧ Encodes (bytes ++ [byte]) next := by
  have bound := encodes.bits_lt
  have small : (BitVec.ofNat 16 byte.toNat).toNat < 2 ^ 8 := by
    have below := byte.toNat_lt
    rw [BitVec.toNat_ofNat]
    omega
  have exact : (BitVec.ofNat 16 byte.toNat).toNat = byte.toNat := by
    have below := byte.toNat_lt
    rw [BitVec.toNat_ofNat]
    omega
  have shifted := low_bits_shift_in state.bits 8 state.buffer
    (.ofNat 16 byte.toNat) small (by omega)
  obtain ⟨next, ran, same, few, symbols, length, total⟩ := writeSymbols_spec
    (state.buffer <<< 8 ||| .ofNat 16 byte.toNat) (state.bits + 8) state.output encodes.symbols
  refine ⟨next, ran, few, symbols, ?_, ?_⟩
  · have before := encodes.length
    simp only [List.length_append, List.length_singleton]
    omega
  · rw [same, total, shifted, exact, bytesValue_concat, ← encodes.value, Nat.pow_add]
    ring

/-- The text holds the bits of the bytes, and fewer than five zero bits after them. -/
theorem base32_bits (bytes : Bytes) :
    ∃ text, base32 bytes = .ok text ∧ (∀ character ∈ text, IsSymbol character) ∧
      ∃ pad < 5, 5 * text.length = 8 * bytes.length + pad ∧
        textValue text = bytesValue bytes * 2 ^ pad := by
  obtain ⟨state, folded, encodes⟩ := foldlM_rule Encodes bytes .start encodes_start
    fun before byte state _ encodes => encodes.byte byte
  have bound := encodes.bits_lt
  have length := encodes.length
  unfold base32
  rw [folded]
  by_cases left : 0 < state.bits
  · have fill := low_bits_shift_in state.bits (5 - state.bits) state.buffer 0#16
      (by simp) (by omega)
    rw [show state.bits + (5 - state.bits) = 5 by omega, BitVec.or_zero] at fill
    obtain ⟨character, found, isSymbol, value⟩ := symbol_five (state.buffer <<< (5 - state.bits))
    refine ⟨state.output ++ [character], ?_, ?_, 5 - state.bits, by omega, ?_, ?_⟩
    · simp only [bind, Except.bind, left, ↓reduceIte, found]
      rfl
    · intro other member
      rcases List.mem_append.mp member with earlier | last
      · exact encodes.symbols other earlier
      · rw [List.mem_singleton.mp last]
        exact isSymbol
    · simp only [List.length_append, List.length_singleton]
      omega
    · have parts : (2 : Nat) ^ state.bits * 2 ^ (5 - state.bits) = 32 := by
        rw [← Nat.pow_add, show state.bits + (5 - state.bits) = 5 by omega]
      rw [textValue_concat, value, fill, ← encodes.value, ← parts]
      simp only [BitVec.toNat_zero]
      ring
  · have none : state.bits = 0 := by omega
    refine ⟨state.output, ?_, encodes.symbols, 0, by decide, by omega, ?_⟩
    · simp only [bind, Except.bind, left, ↓reduceIte]
      rfl
    · have value := encodes.value
      rw [none, Nat.pow_zero, Nat.mod_one] at value
      omega

end MigrationSecretBytes

/-! ### Setup keys of migrated bytes -/

open Base32SetupKey MigrationSecretBytes

theorem unpadded_symbols {text : Str} (symbols : ∀ character ∈ text, IsSymbol character) :
    unpadded text = text := by
  unfold unpadded
  rw [List.rdropWhile_eq_self_iff]
  intro filled
  have last := (symbols _ (List.getLast_mem filled)).2.2
  simpa using last

/-- The decoder reads what the encoder writes. -/
theorem decode_base32 {bytes : Bytes} (filled : bytes ≠ []) {text : Str}
    (encoded : base32 bytes = .ok text) : decode text = .ok bytes := by
  obtain ⟨written, same, symbols, pad, few, length, value⟩ := base32_bits bytes
  rw [encoded] at same
  cases same
  have whole := unpadded_symbols symbols
  obtain ⟨state, folded, decodes⟩ := decodes_text text fun character member =>
    (symbols character member).1
  have bits := decodes.length
  have left := decodes.bits_lt
  have count : state.output.length = bytes.length := by omega
  have rest : state.bits = pad := by omega
  have nonempty : state.output ≠ [] := by
    intro empty
    rw [empty] at count
    exact filled (List.length_eq_zero_iff.mp count.symm)
  have decoded := decode_of_decodes (by rw [whole]; exact folded) nonempty
  have held := decodes.held
  have total := decodes.value
  rw [value, rest] at total
  rw [rest] at held
  have same : bytesValue state.output = bytesValue bytes := by
    have quotient := congrArg (· / 2 ^ pad) total
    simp only [Nat.mul_div_cancel _ (Nat.two_pow_pos pad)] at quotient
    rw [Nat.mul_comm, Nat.mul_add_div (Nat.two_pow_pos pad), Nat.div_eq_of_lt held] at quotient
    omega
  rw [decoded, bytesValue_injective count same]

theorem TotpSecret.parse_eq_ok {value : Str} {secret : TotpSecret} :
    TotpSecret.parse value = .ok secret ↔ secret.asStr = normalize value ∧
      ∃ decoded, decode (normalize value) = .ok decoded ∧ MIN_SECRET_BYTES ≤ decoded.length := by
  unfold TotpSecret.parse
  rw [bind_eq_ok]
  constructor
  · rintro ⟨decoded, read, parsed⟩
    split at parsed
    · cases parsed
    · rename_i enough
      cases parsed
      exact ⟨rfl, decoded, read, Nat.not_lt.mp enough⟩
  · rintro ⟨named, decoded, read, enough⟩
    refine ⟨decoded, read, ?_⟩
    rw [if_neg (Nat.not_lt.mpr enough), ← named]
    rfl

/-- A parsed key parses to itself. -/
theorem TotpSecret.parse_asStr {text : Str} {secret : TotpSecret}
    (parsed : TotpSecret.parse text = .ok secret) :
    TotpSecret.parse secret.asStr = .ok secret := by
  obtain ⟨named, decoded⟩ := TotpSecret.parse_eq_ok.mp parsed
  rw [TotpSecret.parse_eq_ok, named, normalize_normalize]
  exact ⟨rfl, decoded⟩

/-- A migrated key is read back as its bytes, encoder and decoder keep every bit that
is still to be written, and a parsed key parses to itself. -/
theorem setup_keys_carry_bytes :
    (∀ bytes : Bytes, MIN_SECRET_BYTES ≤ bytes.length →
      ∃ text secret, base32 bytes = .ok text ∧ TotpSecret.parse text = .ok secret ∧
        secret.decoded = .ok bytes) ∧
    (∀ bytes : Bytes, ∃ text, base32 bytes = .ok text ∧
      ∃ pad < 5, 5 * text.length = 8 * bytes.length + pad ∧
        textValue text = bytesValue bytes * 2 ^ pad) ∧
    (∀ text output, decode text = .ok output →
      ∃ rest < 8, ∃ left < 2 ^ rest, 5 * (unpadded text).length = 8 * output.length + rest ∧
        textValue (unpadded text) = bytesValue output * 2 ^ rest + left) ∧
    ∀ text secret, TotpSecret.parse text = .ok secret →
      TotpSecret.parse secret.asStr = .ok secret := by
  refine ⟨?_, ?_, fun text output => decode_bits, fun text secret => TotpSecret.parse_asStr⟩
  · intro bytes enough
    obtain ⟨text, encoded, symbols, _⟩ := base32_bits bytes
    have filled : bytes ≠ [] := by
      rintro rfl
      exact absurd enough (by decide)
    have decoded := decode_base32 filled encoded
    have normal : normalize text = text := by
      rw [normalize_of_normal fun character member => (symbols character member).2.1]
      exact unpadded_symbols symbols
    refine ⟨text, ⟨text⟩, encoded, ?_, decoded⟩
    rw [TotpSecret.parse_eq_ok, normal]
    exact ⟨rfl, bytes, decoded, enough⟩
  · intro bytes
    obtain ⟨text, encoded, _, bits⟩ := base32_bits bytes
    exact ⟨text, encoded, bits⟩

end Nook.Secrets
