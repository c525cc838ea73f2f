import Nook.Lib.PercentEncoding
import Nook.Secrets.Authenticator

set_option autoImplicit false

namespace Nook.Secrets

open Nook.EventLog Nook.Lib

/-! ### Reading an `otpauth://totp/...` URI -/

def DEFAULT_DIGITS : Nat := 6

def DEFAULT_PERIOD : Nat := 30

/-- Decimal text as an unsigned integer below `limit`; one `+` may stand before it. -/
def parseUnsigned (limit : Nat) (text : Str) : Option Nat :=
  let digits := (stripPrefix text ['+']).getD text
  let value := digits.foldl (fun value digit => value * 10 + (digit.toNat - '0'.toNat)) 0
  if !digits.isEmpty && digits.all Char.isDigit && decide (value < limit) then some value else none

/-- The value of an optional result, or the error of its absence. -/
def required {α : Type} (error : ValidationError) : Option α → Except ValidationError α
  | some value => .ok value
  | none => .error error

structure ProtocolParameters where
  algorithm : TotpAlgorithm
  digits : TotpDigits
  period : TotpPeriod

inductive UriComponent where
  | path (value : Str)
  | query (value : Str)

namespace UriComponent

def encoded : UriComponent → Str
  | path value => value
  | query value => value.map fun char => if char = '+' then ' ' else char

def decode (component : UriComponent) : Except ValidationError Str :=
  required .authenticatorUriInvalid (utf8Decode (percentDecode component.encoded))

end UriComponent

structure DecodedOtpauthInput where
  label : Str
  parameters : List (Str × Str)

namespace DecodedOtpauthInput

/-- Replace the value of a parameter, or add it behind the others. -/
def put (key value : Str) : List (Str × Str) → List (Str × Str)
  | [] => [(key, value)]
  | (existing, previous) :: rest =>
    if existing = key then (existing, value) :: rest else (existing, previous) :: put key value rest

def parameterNamed (input : DecodedOtpauthInput) (name : Str) : Option Str :=
  (input.parameters.find? fun parameter => parameter.1 = name).map Prod.snd

end DecodedOtpauthInput

def ProtocolParameters.fromUri (input : DecodedOtpauthInput) :
    Except ValidationError ProtocolParameters := do
  let algorithm ← required .authenticatorUriInvalid <|
    TotpAlgorithm.parse ((input.parameterNamed "algorithm".toList).getD "SHA1".toList)
  let digits ← match input.parameterNamed "digits".toList with
    | none => pure DEFAULT_DIGITS
    | some value => required .authenticatorUriInvalid (parseUnsigned (2 ^ 32) value)
  let digits ← required .authenticatorDigitsInvalid (TotpDigits.tryFrom digits)
  let period ← match input.parameterNamed "period".toList with
    | none => pure DEFAULT_PERIOD
    | some value => required .authenticatorUriInvalid (parseUnsigned (2 ^ 64) value)
  let period ← required .authenticatorPeriodInvalid (TotpPeriod.tryFrom period)
  return ⟨algorithm, digits, period⟩

structure CheckedOtpauthInput where
  decoded : DecodedOtpauthInput
  protocol : ProtocolParameters
  secret : TotpSecret

namespace OtpauthInput

/-- Read one `key=value` part of the query. -/
def parameter (parameters : List (Str × Str)) (part : Str) :
    Except ValidationError (List (Str × Str)) := do
  let (key, value) ← required .authenticatorUriInvalid (splitOnce part '=')
  let key ← (UriComponent.query key).decode
  let value ← (UriComponent.query value).decode
  return DecodedOtpauthInput.put key value parameters

def decode (uri : Str) : Except ValidationError DecodedOtpauthInput := do
  let rest ← required .authenticatorUriInvalid (stripPrefix (trim uri) "otpauth://totp/".toList)
  let (labelRaw, queryRaw) ← required .authenticatorUriInvalid (splitOnce rest '?')
  let label ← (UriComponent.path labelRaw).decode
  let parts := (queryRaw.splitOn '&').filter fun part => !part.isEmpty
  return ⟨label, ← parts.foldlM parameter []⟩

def check (input : DecodedOtpauthInput) : Except ValidationError CheckedOtpauthInput := do
  let secret ← required .authenticatorSecretInvalid (input.parameterNamed "secret".toList)
  let protocol ← ProtocolParameters.fromUri input
  return ⟨input, protocol, ← TotpSecret.parse secret⟩

def finish [UrlParser] (input : CheckedOtpauthInput) : Except ValidationError AuthenticatorSecret := do
  let (labelIssuer, account) := (splitOnce input.decoded.label ':').getD ([], input.decoded.label)
  let issuer := (input.decoded.parameterNamed "issuer".toList).getD labelIssuer
  let item : AuthenticatorSecret := {
    issuer := issuer
    account := account
    websiteUrl := []
    secret := input.secret
    algorithm := input.protocol.algorithm
    digits := input.protocol.digits
    period := input.protocol.period
    backupCodes := [] }
  let item ← item.applyInferredWebsiteUrlIfEmpty.mapError fun _ => .authenticatorIssuerCatalogInvalid
  item.normalize

end OtpauthInput

def AuthenticatorSecret.fromOtpauthUri [UrlParser] (uri : Str) :
    Except ValidationError AuthenticatorSecret := do
  OtpauthInput.finish (← OtpauthInput.check (← OtpauthInput.decode uri))

/-! ### Writing it -/

/-- RFC 3986 unreserved characters stay literal. -/
def otpauthComponent (byte : UInt8) : Bool :=
  (0x30 ≤ byte && byte ≤ 0x39) || (0x41 ≤ byte && byte ≤ 0x5a) || (0x61 ≤ byte && byte ≤ 0x7a) ||
    byte == 0x2d || byte == 0x2e || byte == 0x5f || byte == 0x7e

def URI_LITERAL_BYTES : Nat := 59

def URI_PARAMETER_BYTES : Nat := 6 + 1 + 20

def PERCENT_ENCODED_BYTES_PER_BYTE : Nat := 3

namespace AuthenticatorSecret

def otpauthUri (item : AuthenticatorSecret) : Str :=
  "otpauth://totp/:".toList ++ percentEncode otpauthComponent item.account ++
    "?secret=".toList ++ percentEncode otpauthComponent item.secret.asStr ++
    "&issuer=".toList ++ percentEncode otpauthComponent item.issuer ++
    "&algorithm=".toList ++ item.algorithm.asStr ++
    "&digits=".toList ++ item.digits.display ++
    "&period=".toList ++ item.period.display

def otpauthUriCapacity (item : AuthenticatorSecret) : Nat :=
  let encodedInputs := utf8Len item.account + utf8Len item.secret.asStr + utf8Len item.issuer
  URI_LITERAL_BYTES + URI_PARAMETER_BYTES + PERCENT_ENCODED_BYTES_PER_BYTE * encodedInputs

end AuthenticatorSecret

end Nook.Secrets
