import Nook.Lib.PercentEncoding
import Nook.Lib.Reordered
import Nook.Secrets.SecretValue

set_option autoImplicit false

namespace Nook.Secrets

open Nook.EventLog Nook.Lib

/-! ### One account of a transfer -/

/-- An account as its protobuf message carries it. -/
structure OtpParameters where
  secret : Bytes
  name : Str
  issuer : Str
  algorithm : Int32
  digits : Int32
  otpType : Int32
  counter : Int64
  deriving DecidableEq

/-- A value of the result, or the error that takes the place of every other one. -/
def orUnsupported {ε α : Type} : Except ε α → Except OtpParameterError α
  | .ok value => .ok value
  | .error _ => .error .unsupported

def supported {α : Type} : Option α → Except OtpParameterError α
  | some value => .ok value
  | none => .error .unsupported

def migrationAlgorithm (wire : Int32) : Option TotpAlgorithm :=
  if wire = 1 then some .sha1 else if wire = 2 then some .sha256
  else if wire = 3 then some .sha512 else none

def migrationDigits (wire : Int32) : Option TotpDigits :=
  if wire = 0 ∨ wire = 1 then TotpDigits.tryFrom 6 else if wire = 2 then TotpDigits.tryFrom 8
  else none

structure MigrationAccountLabel where
  name : Str
  issuer : Str

/-- The account and the issuer. -/
def MigrationAccountLabel.split (label : MigrationAccountLabel) : Str × Str :=
  let name := trim label.name
  let issuer := trim label.issuer
  if !issuer.isEmpty then
    (trim ((stripPrefix name issuer >>= (stripPrefix · [':'])).getD name), issuer)
  else
    match splitOnce name ':' with
    | some (labelIssuer, account) =>
      if !(trim labelIssuer).isEmpty then (trim account, trim labelIssuer) else (name, name)
    | none => (name, name)

def OtpParameters.convert [UrlParser] (parameter : OtpParameters) :
    Except OtpParameterError SecretValue := do
  if parameter.otpType ≠ 2 then throw .unsupported
  let algorithm ← supported (migrationAlgorithm parameter.algorithm)
  let digits ← supported (migrationDigits parameter.digits)
  let (account, issuer) := MigrationAccountLabel.split ⟨parameter.name, parameter.issuer⟩
  let encodedSecret ← MigrationSecretBytes.base32 parameter.secret
  let authenticator : AuthenticatorSecret := {
    issuer := issuer
    account := account
    websiteUrl := []
    secret := ← orUnsupported (TotpSecret.parse encodedSecret)
    algorithm := algorithm
    digits := digits
    period := ← supported (TotpPeriod.tryFrom 30)
    backupCodes := [] }
  let authenticator ← authenticator.applyInferredWebsiteUrlIfEmpty.mapError .issuerCatalog
  return .authenticator (← orUnsupported authenticator.normalize)

/-! ### One part of a transfer -/

inductive GoogleAuthenticatorImportError where
  | empty
  | tooManyQrCodes
  | uriTooLarge
  | invalidUri
  | invalidPayload
  | payloadTooLarge
  | tooManyItems
  | invalidIssuerCatalog (error : AuthenticatorIssuerHostsError)
  | mixedBatches
  | duplicateBatchPart
  | incompleteBatch (qrCodes : Nat)
  deriving DecidableEq

structure GoogleAuthenticatorImportPlan where
  items : List SecretValue
  sourceCount : Nat
  skippedUnsupported : Nat
  deriving DecidableEq

def MAX_QR_CODES : Nat := 100

def MAX_URI_BYTES : Nat := 16 * 1024

def MAX_PAYLOAD_BYTES : Nat := 1024 * 1024

def MAX_ITEMS : Nat := 10000

structure MigrationPayload where
  otpParameters : List OtpParameters
  version : Int32
  batchSize : Int32
  batchIndex : Int32
  batchId : Int32
  deriving DecidableEq

/-- The third-party decoders of a part: standard base64, and its protobuf message. -/
class MigrationDecoders where
  base64 : Str → Option Bytes
  payload : Bytes → Option MigrationPayload

structure ParsedPart where
  payload : MigrationPayload
  batchSize : Nat
  batchIndex : Nat
  deriving DecidableEq

def present {α : Type} (error : GoogleAuthenticatorImportError) :
    Option α → Except GoogleAuthenticatorImportError α
  | some value => .ok value
  | none => .error error

def usizeTryFrom (value : Int32) : Option Nat :=
  if 0 ≤ value.toInt then some value.toInt.toNat else none

/-- A batch of unstated size has one part. -/
def MigrationPayload.size (payload : MigrationPayload) : Option Nat :=
  if payload.batchSize = 0 then some 1
  else if 0 < payload.batchSize.toInt then usizeTryFrom payload.batchSize
  else none

section
variable [MigrationDecoders]

def ParsedPart.parse (uri : Str) : Except GoogleAuthenticatorImportError ParsedPart := do
  if MAX_URI_BYTES < utf8Len uri then throw .uriTooLarge
  let query ← present .invalidUri
    (stripPrefix (trim uri) "otpauth-migration://offline?".toList)
  let data ← present .invalidUri
    ((query.splitOn '&').findSome? (stripPrefix · "data=".toList))
  let data ← present .invalidPayload (utf8Decode (percentDecode data))
  let decoded ← present .invalidPayload (MigrationDecoders.base64 data)
  if MAX_PAYLOAD_BYTES < decoded.length then throw .payloadTooLarge
  let payload ← present .invalidPayload (MigrationDecoders.payload decoded)
  let batchSize ← present .invalidPayload payload.size
  let batchIndex ← present .invalidPayload (usizeTryFrom payload.batchIndex)
  if MAX_QR_CODES < batchSize ∨ batchSize ≤ batchIndex then throw .invalidPayload
  return ⟨payload, batchSize, batchIndex⟩

/-! ### The parts of one batch -/

structure ParsedMigrationBatch where
  parts : List ParsedPart

structure CompleteMigrationBatch where
  parts : List ParsedPart
  sourceCount : Nat

def ParsedMigrationBatch.parse (uris : List Str) :
    Except GoogleAuthenticatorImportError ParsedMigrationBatch := do
  if uris.isEmpty then throw .empty
  if MAX_QR_CODES < uris.length then throw .tooManyQrCodes
  return ⟨← uris.mapM ParsedPart.parse⟩

end

/-- Whether two parts next to each other have one index. -/
def repeatsIndex : List ParsedPart → Bool
  | left :: right :: rest => left.batchIndex == right.batchIndex || repeatsIndex (right :: rest)
  | _ => false

def sourceAccounts (parts : List ParsedPart) : Nat :=
  (parts.map fun part => part.payload.otpParameters.length).sum

def ParsedMigrationBatch.complete (batch : ParsedMigrationBatch) :
    Except GoogleAuthenticatorImportError CompleteMigrationBatch := do
  let first ← present .empty batch.parts.head?
  let expectedSize := first.batchSize
  let expectedId := first.payload.batchId
  let expectedVersion := first.payload.version
  if batch.parts.any fun part => part.batchSize != expectedSize ||
      part.payload.batchId != expectedId || part.payload.version != expectedVersion then
    throw .mixedBatches
  let parts := sortByKey ParsedPart.batchIndex batch.parts
  if repeatsIndex parts then throw .duplicateBatchPart
  if parts.length ≠ expectedSize ∨
      parts.zipIdx.any (fun entry => entry.2 != entry.1.batchIndex) = true then
    throw (.incompleteBatch expectedSize)
  let sourceCount := sourceAccounts parts
  if sourceCount = 0 then throw .invalidPayload
  if MAX_ITEMS < sourceCount then throw .tooManyItems
  return ⟨parts, sourceCount⟩

/-! ### The plan -/

section
variable [UrlParser]

/-- Take an account over, or count it as skipped. -/
def CompleteMigrationBatch.take (planned : List SecretValue × Nat) (parameter : OtpParameters) :
    Except GoogleAuthenticatorImportError (List SecretValue × Nat) :=
  match parameter.convert with
  | .ok item => .ok (planned.1 ++ [item], planned.2)
  | .error .unsupported => .ok (planned.1, planned.2 + 1)
  | .error (.issuerCatalog error) => .error (.invalidIssuerCatalog error)

def CompleteMigrationBatch.plan (batch : CompleteMigrationBatch) :
    Except GoogleAuthenticatorImportError GoogleAuthenticatorImportPlan := do
  let parameters := batch.parts.flatMap fun part => part.payload.otpParameters
  let (items, skippedUnsupported) ← parameters.foldlM take ([], 0)
  return ⟨items, batch.sourceCount, skippedUnsupported⟩

def GoogleAuthenticatorMigrationInput.plan [MigrationDecoders] (uris : List Str) :
    Except GoogleAuthenticatorImportError GoogleAuthenticatorImportPlan := do
  (← (← ParsedMigrationBatch.parse uris).complete).plan

end

example : MigrationAccountLabel.split ⟨" Example: alice ".toList, " Example ".toList⟩ =
    ("alice".toList, "Example".toList) := by decide +kernel

end Nook.Secrets
