import Nook.EventLog.Text
import Nook.EventLog.Event
import Nook.Lib.Except

set_option autoImplicit false

namespace Nook.Secrets

open Nook.EventLog Nook.Lib

/-- The validation errors of authenticator items. -/
inductive ValidationError where
  | authenticatorIssuerRequired
  | authenticatorSecretInvalid
  | authenticatorUriInvalid
  | authenticatorDigitsInvalid
  | authenticatorPeriodInvalid
  | authenticatorIssuerCatalogInvalid
  deriving DecidableEq

/-- A setup key as it is stored. -/
structure TotpSecret where
  asStr : Str
  deriving DecidableEq

def isAsciiWhitespace (character : Char) : Bool :=
  character == ' ' || character == '\t' || character == '\n' || character == '\x0c' ||
    character == '\r'

/-- The text without the padding at its end. -/
def unpadded (text : Str) : Str := text.rdropWhile (· == '=')

namespace Base32SetupKey

def normalize (text : Str) : Str :=
  unpadded ((text.filter fun character => !isAsciiWhitespace character && character != '-').map
    Char.toUpper)

def digit (character : Char) : Except ValidationError (BitVec 32) :=
  if 'A' ≤ character ∧ character ≤ 'Z' then .ok (.ofNat 32 (character.toNat - 'A'.toNat))
  else if '2' ≤ character ∧ character ≤ '7' then
    .ok (.ofNat 32 (character.toNat - '2'.toNat + 26))
  else .error .authenticatorSecretInvalid

/-- The decoder between two characters: bits not written yet, how many, and the bytes written. -/
structure Decoding where
  buffer : BitVec 32
  bits : Nat
  output : Bytes
  deriving DecidableEq

def Decoding.start : Decoding := ⟨0, 0, []⟩

def Decoding.character (state : Decoding) (character : Char) : Except ValidationError Decoding := do
  let buffer := state.buffer <<< 5 ||| (← digit character)
  let bits := state.bits + 5
  if 8 ≤ bits then
    let bits := bits - 8
    return ⟨buffer &&& (1 <<< bits - 1), bits,
      state.output ++ [UInt8.ofNat (buffer >>> bits &&& 0xff).toNat]⟩
  else return ⟨buffer, bits, state.output⟩

def decode (text : Str) : Except ValidationError Bytes := do
  let state ← (unpadded text).foldlM Decoding.character .start
  if state.output.isEmpty then throw .authenticatorSecretInvalid
  return state.output

end Base32SetupKey

def MIN_SECRET_BYTES : Nat := 10

namespace TotpSecret

def parse (value : Str) : Except ValidationError TotpSecret := do
  let normalized := Base32SetupKey.normalize value
  let decoded ← Base32SetupKey.decode normalized
  if decoded.length < MIN_SECRET_BYTES then throw .authenticatorSecretInvalid
  return ⟨normalized⟩

def decoded (secret : TotpSecret) : Except ValidationError Bytes :=
  Base32SetupKey.decode secret.asStr

end TotpSecret

inductive AuthenticatorIssuerHostsError where
  | invalidBundledCatalog
  deriving DecidableEq

inductive OtpParameterError where
  | unsupported
  | issuerCatalog (error : AuthenticatorIssuerHostsError)
  deriving DecidableEq

namespace MigrationSecretBytes

def ALPHABET : Str := "ABCDEFGHIJKLMNOPQRSTUVWXYZ234567".toList

def symbol (index : BitVec 16) : Except OtpParameterError Char :=
  match ALPHABET[index.toNat]? with
  | some symbol => .ok symbol
  | none => .error .unsupported

/-- The encoder between two bytes: the buffer, how many of its bits are not written
yet, and the text written. -/
structure Encoding where
  buffer : BitVec 16
  bits : Nat
  output : Str
  deriving DecidableEq

def Encoding.start : Encoding := ⟨0, 0, []⟩

/-- Write symbols while five bits are left. -/
def writeSymbols (buffer : BitVec 16) : Nat → Str → Except OtpParameterError Encoding
  | bits + 5, output => do
    let symbol ← symbol (buffer >>> bits &&& 0x1f)
    writeSymbols buffer bits (output ++ [symbol])
  | bits, output => .ok ⟨buffer, bits, output⟩

def Encoding.byte (state : Encoding) (byte : UInt8) : Except OtpParameterError Encoding :=
  writeSymbols (state.buffer <<< 8 ||| .ofNat 16 byte.toNat) (state.bits + 8) state.output

def base32 (bytes : Bytes) : Except OtpParameterError Str := do
  let state ← bytes.foldlM Encoding.byte .start
  if 0 < state.bits then
    return state.output ++ [← symbol (state.buffer <<< (5 - state.bits) &&& 0x1f)]
  else return state.output

end MigrationSecretBytes

example : MigrationSecretBytes.base32 [0x66, 0x6f, 0x6f, 0x62] = .ok "MZXW6YQ".toList := by
  decide +kernel

example : TotpSecret.parse " jb-sw\tY3dp\nehpk3pxp==== ".toList =
    .ok ⟨"JBSWY3DPEHPK3PXP".toList⟩ := by decide +kernel

end Nook.Secrets
