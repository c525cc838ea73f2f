import Nook.Lib.Utf8

set_option autoImplicit false

namespace Nook.Lib

/-! ### Bytes written as `%` and two hexadecimal digits -/

def hexDigitByte (digit : Nat) : UInt8 :=
  if digit < 10 then UInt8.ofNat (0x30 + digit) else UInt8.ofNat (0x41 + (digit - 10))

def hexDigitValue (byte : UInt8) : Option Nat :=
  if 0x30 ≤ byte ∧ byte ≤ 0x39 then some (byte.toNat - 0x30)
  else if 0x41 ≤ byte ∧ byte ≤ 0x46 then some (byte.toNat - 0x41 + 10)
  else if 0x61 ≤ byte ∧ byte ≤ 0x66 then some (byte.toNat - 0x61 + 10)
  else none

/-- One byte in an encoded text: itself when it is literal, else its escape. -/
def percentByte (literal : UInt8 → Bool) (byte : UInt8) : List UInt8 :=
  if literal byte then [byte]
  else [0x25, hexDigitByte (byte.toNat / 16), hexDigitByte (byte.toNat % 16)]

/-- The text with every byte of its UTF-8 that is not literal escaped. -/
def percentEncode (literal : UInt8 → Bool) (text : List Char) : List Char :=
  ((utf8Encode text).flatMap (percentByte literal)).map fun byte => Char.ofNat byte.toNat

/-- The bytes with every escape replaced by its byte. What is no escape stays. -/
def percentDecodeBytes : List UInt8 → List UInt8
  | [] => []
  | byte :: rest =>
    match rest with
    | high :: low :: after =>
      match hexDigitValue high, hexDigitValue low with
      | some first, some second =>
        if byte = 0x25 then UInt8.ofNat (16 * first + second) :: percentDecodeBytes after
        else byte :: percentDecodeBytes (high :: low :: after)
      | _, _ => byte :: percentDecodeBytes (high :: low :: after)
    | [last] => [byte, last]
    | [] => [byte]

def percentDecode (text : List Char) : List UInt8 := percentDecodeBytes (utf8Encode text)

/-- A set of literal bytes that leaves escapes recognizable. -/
def SafeLiteral (literal : UInt8 → Bool) : Prop :=
  ∀ byte, literal byte = true → byte.toNat < 128 ∧ byte ≠ 0x25

variable {literal : UInt8 → Bool}

theorem hexDigitValue_hexDigitByte {digit : Nat} (small : digit < 16) :
    hexDigitValue (hexDigitByte digit) = some digit := by
  have table : ∀ digit < 16, hexDigitValue (hexDigitByte digit) = some digit := by decide
  exact table digit small

theorem hexDigitByte_ascii {digit : Nat} (small : digit < 16) :
    (hexDigitByte digit).toNat < 128 := by
  have table : ∀ digit < 16, (hexDigitByte digit).toNat < 128 := by decide
  exact table digit small

theorem percentDecodeBytes_cons {byte : UInt8} (plain : byte ≠ 0x25) (rest : List UInt8) :
    percentDecodeBytes (byte :: rest) = byte :: percentDecodeBytes rest := by
  match rest with
  | [] => rfl
  | [last] => simp [percentDecodeBytes]
  | high :: low :: after =>
    rw [percentDecodeBytes]
    split
    · rw [if_neg plain]
    · rfl

theorem percentDecodeBytes_percentByte (safe : SafeLiteral literal) (byte : UInt8)
    (rest : List UInt8) :
    percentDecodeBytes (percentByte literal byte ++ rest) = byte :: percentDecodeBytes rest := by
  unfold percentByte
  by_cases plain : literal byte = true
  · rw [if_pos plain]
    exact percentDecodeBytes_cons (safe byte plain).2 rest
  · have below := byte.toNat_lt
    have value : UInt8.ofNat (16 * (byte.toNat / 16) + byte.toNat % 16) = byte := by
      rw [Nat.div_add_mod, UInt8.ofNat_toNat]
    rw [if_neg plain]
    simp only [List.cons_append, List.nil_append, percentDecodeBytes,
      hexDigitValue_hexDigitByte (show byte.toNat / 16 < 16 by omega),
      hexDigitValue_hexDigitByte (show byte.toNat % 16 < 16 by omega), if_true, value]

theorem percentDecodeBytes_flatMap (safe : SafeLiteral literal) (bytes : List UInt8) :
    percentDecodeBytes (bytes.flatMap (percentByte literal)) = bytes := by
  induction bytes with
  | nil => rfl
  | cons byte bytes ih =>
    rw [List.flatMap_cons, percentDecodeBytes_percentByte safe, ih]

theorem percentByte_ascii (safe : SafeLiteral literal) {byte encoded : UInt8}
    (member : encoded ∈ percentByte literal byte) : encoded.toNat < 128 := by
  have below := byte.toNat_lt
  unfold percentByte at member
  split at member
  · rename_i plain
    rw [List.mem_singleton.mp member]
    exact (safe byte plain).1
  · simp only [List.mem_cons, List.not_mem_nil, or_false] at member
    rcases member with rfl | rfl | rfl
    · decide
    · exact hexDigitByte_ascii (by omega)
    · exact hexDigitByte_ascii (by omega)

/-- The bytes of an encoded text are the escapes of the bytes of the text. -/
theorem utf8Encode_percentEncode (safe : SafeLiteral literal) (text : List Char) :
    utf8Encode (percentEncode literal text) = (utf8Encode text).flatMap (percentByte literal) := by
  have encodedAscii : ∀ byte ∈ (utf8Encode text).flatMap (percentByte literal),
      byte.toNat < 128 := by
    intro byte inside
    obtain ⟨source, _, encoded⟩ := List.mem_flatMap.mp inside
    exact percentByte_ascii safe encoded
  have char_toNat : ∀ byte : UInt8, byte.toNat < 128 → (Char.ofNat byte.toNat).toNat = byte.toNat := by
    intro byte ascii
    unfold Char.ofNat
    rw [dif_pos (Or.inl (by omega))]
    rfl
  rw [percentEncode, utf8Encode_ascii, List.map_map]
  · have own : ∀ byte ∈ (utf8Encode text).flatMap (percentByte literal),
        ((fun char => UInt8.ofNat char.toNat) ∘ fun byte => Char.ofNat byte.toNat) byte =
          id byte := by
      intro byte inside
      simp only [Function.comp, char_toNat byte (encodedAscii byte inside), UInt8.ofNat_toNat, id]
    rw [List.map_congr_left own, List.map_id]
  · intro char member
    obtain ⟨byte, inside, rfl⟩ := List.mem_map.mp member
    rw [char_toNat byte (encodedAscii byte inside)]
    exact encodedAscii byte inside

/-- Decoding an encoded text gives its bytes. -/
theorem percentDecode_percentEncode (safe : SafeLiteral literal) (text : List Char) :
    percentDecode (percentEncode literal text) = utf8Encode text := by
  rw [percentDecode, utf8Encode_percentEncode safe, percentDecodeBytes_flatMap safe]

/-- A text of literal characters is its own encoding. -/
theorem percentEncode_literal (safe : SafeLiteral literal) {text : List Char}
    (plain : ∀ char ∈ text, char.toNat < 128 ∧ literal (UInt8.ofNat char.toNat) = true) :
    percentEncode literal text = text := by
  apply utf8Encode_injective
  rw [utf8Encode_percentEncode safe]
  have each : ∀ byte ∈ utf8Encode text, percentByte literal byte = [byte] := by
    intro byte member
    rw [utf8Encode_ascii fun char inside => (plain char inside).1] at member
    obtain ⟨char, inside, rfl⟩ := List.mem_map.mp member
    rw [percentByte, if_pos (plain char inside).2]
  rw [List.flatMap_congr each, List.flatMap_singleton']

theorem length_utf8Encode_percentEncode_le (safe : SafeLiteral literal) (text : List Char) :
    (utf8Encode (percentEncode literal text)).length ≤ 3 * (utf8Encode text).length := by
  rw [utf8Encode_percentEncode safe]
  induction utf8Encode text with
  | nil => rfl
  | cons byte bytes ih =>
    have one : (percentByte literal byte).length ≤ 3 := by
      unfold percentByte
      split <;> simp
    rw [List.flatMap_cons, List.length_append, List.length_cons]
    omega

/-- An encoded text holds literal bytes and escapes only. -/
theorem mem_percentEncode (digits : ∀ digit < 16, literal (hexDigitByte digit) = true)
    {text : List Char} {char : Char} (member : char ∈ percentEncode literal text) :
    ∃ byte, char = Char.ofNat byte.toNat ∧ (literal byte = true ∨ byte = 0x25) := by
  obtain ⟨byte, inside, rfl⟩ := List.mem_map.mp member
  obtain ⟨source, _, encoded⟩ := List.mem_flatMap.mp inside
  refine ⟨byte, rfl, ?_⟩
  have below := source.toNat_lt
  unfold percentByte at encoded
  split at encoded
  · rename_i plain
    rw [List.mem_singleton.mp encoded]
    exact Or.inl plain
  · simp only [List.mem_cons, List.not_mem_nil, or_false] at encoded
    rcases encoded with rfl | rfl | rfl
    · exact Or.inr rfl
    · exact Or.inl (digits _ (by omega))
    · exact Or.inl (digits _ (by omega))

end Nook.Lib
