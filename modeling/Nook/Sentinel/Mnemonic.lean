import Nook.Sentinel.SecretPolynomial
import Nook.Sentinel.WordList

set_option autoImplicit false

namespace Nook.Sentinel

open Nook.Auth Nook.EventLog Nook.Lib

def EXTENDABLE_CUSTOMIZATION : List Char := "shamir_extendable".toList
def CHECKSUM_WORDS : Nat := 3
def METADATA_WORDS : Nat := 4
def MNEMONIC_WORDS_256 : Nat := 33

/-! ### `MnemonicWords` -/

namespace MnemonicWords

def integerWords (value count : Nat) : List Nat :=
  (List.range count).reverse.map fun position => (value >>> (position * 10)) &&& 1023

def wordsToU32 (words : List Nat) : Nat :=
  words.foldl (fun value word => (value <<< 10) ||| word) 0

/-- The bit of a ten-bit word that stands at the given position of the whole. -/
def wordBit (word position : Nat) : Bool := word &&& (1 <<< (9 - position % 10)) ≠ 0

def markWord (word position : Nat) : Nat := word ||| (1 <<< (9 - position % 10))

def byteBit (byte : Byte) (position : Nat) : Bool := byte &&& (1 <<< (7 - position % 8)) ≠ 0

def markByte (byte : Byte) (position : Nat) : Byte := byte ||| (1 <<< (7 - position % 8))

/-- One of the units, each `width` bits wide, that a bit belongs to. -/
def unitAt {α : Type} (width : Nat) (units : List α) (position : Nat) : MultiDeviceResult α :=
  match units[position / width]? with
  | none => .error .invalidSentinelShareEncoding
  | some unit => .ok unit

/-- Marks a bit that is set, at the position `offset` further on. -/
def copyBit {α : Type} (width offset : Nat) (mark : α → Nat → α)
    (isSet : Nat → MultiDeviceResult Bool) (units : List α) (bit : Nat) :
    MultiDeviceResult (List α) := do
  if ← isSet bit then
    let unit ← unitAt width units (offset + bit)
    pure (units.set ((offset + bit) / width) (mark unit (offset + bit)))
  else pure units

def copyBits {α : Type} (width offset count : Nat) (mark : α → Nat → α)
    (isSet : Nat → MultiDeviceResult Bool) (units : List α) : MultiDeviceResult (List α) :=
  (List.range count).foldlM (copyBit width offset mark isSet) units

def bytesToWords (bytes : List Byte) : MultiDeviceResult (List Nat) :=
  let wordCount := (bytes.length * 8 + 9) / 10
  let padding := wordCount * 10 - bytes.length * 8
  copyBits 10 padding (bytes.length * 8) markWord
    (fun bit => do pure (byteBit (← unitAt 8 bytes bit) bit)) (List.replicate wordCount 0)

/-- The bits before the value have to be zero. -/
def checkPadding (words : List Nat) (padding : Nat) : MultiDeviceResult Unit :=
  (List.range padding).forM fun bit => do
    refuse (wordBit (← unitAt 10 words bit) bit) .invalidSentinelShareEncoding

def wordsToBytes (words : List Nat) : MultiDeviceResult (List Byte) :=
  let paddedBits := words.length * 10
  let padding := paddedBits % 16
  if padding > 8 ∨ words.any (· > 1023) then .error .invalidSentinelShareEncoding
  else do
    checkPadding words padding
    let byteCount := (paddedBits - padding) / 8
    if byteCount < 16 then .error .invalidSentinelShareEncoding
    else
      copyBits 8 0 (byteCount * 8) markByte
        (fun bit => do pure (wordBit (← unitAt 10 words (padding + bit)) (padding + bit)))
        (List.replicate byteCount 0)

end MnemonicWords

/-! ### `Checksum` -/

namespace Checksum

def GENERATORS : List Nat := [
  0x00e0e040, 0x01c1c080, 0x03838100, 0x07070200, 0x0e0e0009,
  0x1c0c2412, 0x38086c24, 0x3090fc48, 0x21b1f890, 0x03f3f120]

def step (checksum value : Nat) : Nat :=
  let top := checksum >>> 20
  GENERATORS.zipIdx.foldl (fun checksum (generator, index) =>
    if (top >>> index) &&& 1 ≠ 0 then checksum ^^^ generator else checksum)
    (((checksum &&& 0x000fffff) <<< 10) ^^^ value)

def polymod (values : List Nat) : Nat := values.foldl step 1

def create (data : List Nat) : List Nat :=
  let checksum := polymod (EXTENDABLE_CUSTOMIZATION.map Char.toNat ++ data ++ [0, 0, 0]) ^^^ 1
  [(checksum >>> 20) &&& 1023, (checksum >>> 10) &&& 1023, checksum &&& 1023]

def verify (data : List Nat) : Bool :=
  polymod (EXTENDABLE_CUSTOMIZATION.map Char.toNat ++ data) = 1

end Checksum

/-! ### `Share` -/

/-- `str::split_whitespace`. -/
def splitWhitespace (text : Str) : List Str := (text.splitOnP isWhitespace).filter (· ≠ [])

/-- `join(" ")`. -/
def joinWords (words : List Str) : Str := [' '].intercalate words

structure Share where
  identifier : Nat
  iterationExponent : Nat
  memberIndex : Nat
  memberThreshold : Nat
  value : List Byte
  deriving DecidableEq

namespace Share

def indices (share : Share) : MultiDeviceResult (List Nat) := do
  let idExtExponent := (share.identifier <<< 5) ||| (1 <<< 4) ||| share.iterationExponent
  let groupMemberParameters := (share.memberIndex <<< 4) ||| (share.memberThreshold - 1)
  let value ← MnemonicWords.bytesToWords share.value
  let data := MnemonicWords.integerWords idExtExponent 2 ++
    MnemonicWords.integerWords groupMemberParameters 2 ++ value
  pure (data ++ Checksum.create data)

def wordAt (index : Nat) : MultiDeviceResult Str :=
  match WordList.values[index]? with
  | none => .error .invalidSentinelShareEncoding
  | some word => .ok word

def indexOf (word : Str) : MultiDeviceResult Nat :=
  match WordList.position word with
  | none => .error .invalidSentinelShareEncoding
  | some index => .ok index

def encode (share : Share) : MultiDeviceResult Str :=
  if share.value.length ≠ SECRET_BYTES ∨ share.memberThreshold = 0 ∨ share.memberThreshold > 16 ∨
      share.memberIndex > 15 ∨ share.iterationExponent > 15 then
    .error .invalidSentinelShareEncoding
  else do
    let words ← (← share.indices).mapM wordAt
    pure (joinWords words)

/-- The fields behind a checksum that holds. -/
def decodeFields (idExtExponent parameters : Nat) (valueWords : List Nat) :
    MultiDeviceResult Share :=
  let identifier := idExtExponent >>> 5
  let extendable := (idExtExponent >>> 4) &&& 1
  let iterationExponent := idExtExponent &&& 0x0f
  if identifier > 0x7fff ∨ extendable ≠ 1 then .error .invalidSentinelShareEncoding
  else
    let groupIndex := (parameters >>> 16) &&& 0x0f
    let groupThreshold := ((parameters >>> 12) &&& 0x0f) + 1
    let groupCount := ((parameters >>> 8) &&& 0x0f) + 1
    let memberIndex := (parameters >>> 4) &&& 0x0f
    let memberThreshold := (parameters &&& 0x0f) + 1
    if groupIndex ≠ 0 ∨ groupThreshold ≠ 1 ∨ groupCount ≠ 1 then
      .error .invalidSentinelShareEncoding
    else do
      let value ← MnemonicWords.wordsToBytes valueWords
      if value.length ≠ SECRET_BYTES then .error .invalidSentinelShareEncoding
      else pure { identifier, iterationExponent, memberIndex, memberThreshold, value }

def decodeIndices (indices : List Nat) : MultiDeviceResult Share :=
  if indices.length ≠ MNEMONIC_WORDS_256 ∨ ¬ Checksum.verify indices then
    .error .invalidSentinelShareEncoding
  else
    let valueEnd := indices.length - CHECKSUM_WORDS
    decodeFields (MnemonicWords.wordsToU32 (indices.take 2))
      (MnemonicWords.wordsToU32 ((indices.take METADATA_WORDS).drop 2))
      ((indices.take valueEnd).drop METADATA_WORDS)

def decode (mnemonic : Str) : MultiDeviceResult Share := do
  let indices ← (splitWhitespace mnemonic).mapM indexOf
  decodeIndices indices

end Share

end Nook.Sentinel
