import Nook.EventLog.Graph

set_option autoImplicit false

namespace Nook.EventLog.TestSupport

/-! A concrete choice of the third-party operations on which whole runs compute.
The creation time of an event serves as its canonical text and its digest, the
hexadecimal form of a key as the digest of the key, and every signature verifies. -/

def hexDigit (char : Char) : Option Nat :=
  if char.isDigit then some (char.toNat - '0'.toNat)
  else if 'a' ≤ char && char ≤ 'f' then some (char.toNat - 'a'.toNat + 10)
  else none

def hexBytes : List Char → Option Bytes
  | [] => some []
  | [_] => none
  | high :: low :: rest => do
    let high ← hexDigit high
    let low ← hexDigit low
    return UInt8.ofNat (16 * high + low) :: (← hexBytes rest)

def hexChar (digit : Nat) : Char :=
  if digit < 10 then Char.ofNat ('0'.toNat + digit) else Char.ofNat ('a'.toNat + (digit - 10))

def hexEncode (bytes : Bytes) : Str :=
  bytes.flatMap fun byte => [hexChar (byte.toNat / 16), hexChar (byte.toNat % 16)]

scoped instance external : External where
  canonicalJson body := .ok body.createdAt.asStr
  sha256Base64Url body := body
  sha256Hex := hexEncode
  urlSafeNoPadDecode _ := some (List.replicate 32 0)
  hexDecode text := hexBytes text
  isVerifyingKey _ := true
  ed25519Verify _ _ _ := true

/-- The digest text of a one-letter tag. -/
def digest (tag : Char) : Str := tag :: List.replicate 42 'A'

def eventId (tag : Char) : EventId := ⟨"sha256u:".toList ++ digest tag⟩

/-- The public key whose hexadecimal digits are all `digit`. -/
def publicKey (digit : Char) : DeviceSigningPublicKey :=
  .ed25519Hex (List.replicate 64 digit)

def actor (digit : Char) : AuthKeyId := ⟨"key_".toList ++ List.replicate 64 digit⟩

def device (digit : Char) : DeviceId := ⟨List.replicate 16 digit⟩

def storeName : Str := "store_testtoken11".toList

/-- An event with id `eventId tag`, signed by the key of `digit`. -/
def signed (tag digit : Char) (parents : List EventId) (keyEpoch : EventId)
    (operations : List VaultOperation) : VaultEvent where
  body := {
    schemaVersion := VaultEventSchemaVersion.current
    storeId := ⟨storeName⟩
    actorId := actor digit
    actorSigningPublicKey := publicKey digit
    parents := parents
    createdAt := ⟨digest tag⟩
    keyEpoch := keyEpoch
    operations := operations }
  signature := ⟨"ed25519:".toList ++ List.replicate 128 '0'⟩

def secretId (tag : Char) : SecretId := ⟨"secret_".toList ++ [tag]⟩

def secret (tag : Char) (ciphertext : Str) : EncryptedSecretPayload where
  id := secretId tag
  secretType := .login
  ciphertext := ⟨ciphertext⟩
  identityFingerprint := ⟨[]⟩
  fingerprint := ⟨[]⟩

def genesis (tag digit : Char) : VaultEvent :=
  signed tag digit [] (eventId tag) [.vaultImported ⟨[]⟩ []]

end Nook.EventLog.TestSupport
