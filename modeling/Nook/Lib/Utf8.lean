import Mathlib

set_option autoImplicit false

namespace Nook.Lib

/-- The UTF-8 bytes of a text. -/
def utf8Encode (text : List Char) : List UInt8 := text.flatMap String.utf8EncodeChar

/-- The text whose UTF-8 bytes are given, if they are any text's. -/
def utf8Decode (bytes : List UInt8) : Option (List Char) :=
  (ByteArray.utf8Decode? bytes.toByteArray).map Array.toList

theorem utf8Decode_utf8Encode (text : List Char) : utf8Decode (utf8Encode text) = some text := by
  have decoded : (List.utf8Encode text).utf8Decode? = some text.toArray :=
    List.utf8Decode?_utf8Encode
  unfold utf8Decode utf8Encode
  rw [show (text.flatMap String.utf8EncodeChar).toByteArray = List.utf8Encode text from rfl, decoded]
  rfl

theorem utf8Encode_injective : Function.Injective utf8Encode := by
  intro left right same
  have decoded := utf8Decode_utf8Encode left
  rw [same, utf8Decode_utf8Encode] at decoded
  exact (Option.some.inj decoded).symm

@[simp] theorem utf8Encode_append (left right : List Char) :
    utf8Encode (left ++ right) = utf8Encode left ++ utf8Encode right :=
  List.flatMap_append

theorem length_utf8Encode (text : List Char) :
    (utf8Encode text).length = (text.map Char.utf8Size).sum := by
  simp [utf8Encode, List.length_flatMap]

/-- An ASCII character is its own byte. -/
theorem utf8EncodeChar_ascii {char : Char} (ascii : char.toNat < 128) :
    String.utf8EncodeChar char = [UInt8.ofNat char.toNat] := by
  have size : char.utf8Size = 1 := Char.utf8Size_eq_one_iff.mpr (by
    rw [UInt32.le_iff_toNat_le]
    exact Nat.le_of_lt_succ ascii)
  rw [String.utf8EncodeChar_eq_singleton size]
  rfl

theorem utf8Encode_ascii {text : List Char} (ascii : ∀ char ∈ text, char.toNat < 128) :
    utf8Encode text = text.map fun char => UInt8.ofNat char.toNat := by
  induction text with
  | nil => rfl
  | cons head tail ih =>
    have first := utf8EncodeChar_ascii (ascii head (List.mem_cons_self ..))
    rw [List.map_cons, ← ih fun char member => ascii char (List.mem_cons_of_mem _ member)]
    show String.utf8EncodeChar head ++ utf8Encode tail = _
    rw [first]
    rfl

end Nook.Lib
