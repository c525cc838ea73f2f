import Nook.EventLog.Text

set_option autoImplicit false

namespace Nook.Auth

open Nook.EventLog

inductive MultiDeviceError where
  | generateId (message : String)
  | generateKey (message : String)
  | invalidRecipientPublicKey (message : String)
  | invalidDeviceIdentity (message : String)
  | identityLabelEmpty
  | duplicateIdentity (identityId : IdentityId)
  | identityNotFound (identityId : Str)
  | identityEnrollmentRequired
  | retiredAppKey
  | duplicateVaultOwnership (storeId : StoreId)
  | appKeyRevokedFromIdentity (identityId : IdentityId)
  | identityAlreadyInUse (identityId : IdentityId)
  | replicatedIdentityAlreadyLocal (identityId : IdentityId)
  | appKeyBelongsToAnotherIdentity (identityId : IdentityId)
  | staleVaultDekEpoch (expected actual : Str)
  | duplicateAppKeyOwnership (appId : AppId)
  | invalidIdentitySelection
  /-- `Validation` of `ValidationError::SymmetricKeyInvalid`. -/
  | symmetricKeyInvalid
  | ageCrypto (message : String)
  | deviceNameTooLong
  | invalidSentinelThreshold
  | invalidSentinelGenesisSession
  | invalidSentinelGenesisSignature
  | duplicateSentinelGenesisParticipant (deviceId : Str)
  | sentinelGenesisRosterFull
  | sentinelParticipantCountOverflow
  | sentinelGenesisIncomplete (required available : Nat)
  | sentinelGenesisDeliveryRecipientMismatch
  | invalidSentinelGenesisPayload
  | standaloneSentinelGenesisAnnouncementRejected
  | notEnoughSentinelShares (threshold available : Nat)
  | sentinelShareJson
  | sentinelShareSerialize
  | sentinelSharePayload
  | invalidSentinelShareEncoding
  | validation (cause : ValidationError)
  /-- `Validation` of `ValidationError::AgeArmoredInvalid`. -/
  | ageArmoredInvalid
  | joinRequestJson
  | authEnvelopeJson
  | memberEntryJson
  | memberRecordKeyMismatch (expectedKey actualKey : Str)
  | invalidMemberId
  | cannotRemoveLastAccess
  | deviceNotFound
  | vaultCrypto (message : String)
  deriving DecidableEq

abbrev MultiDeviceResult (α : Type) := Except MultiDeviceError α

def refuse (check : Bool) (cause : MultiDeviceError) : MultiDeviceResult Unit :=
  if check then .error cause else .ok ()

@[simp] theorem refuse_eq_ok (check : Bool) (cause : MultiDeviceError) :
    refuse check cause = .ok () ↔ check = false := by
  cases check <;> simp [refuse]

/-- A key of a vault, as 64 hexadecimal digits. -/
structure SymmetricKey where
  asStr : Str
  deriving DecidableEq

def SymmetricKey.parse (raw : Str) : MultiDeviceResult SymmetricKey :=
  let key := trim raw
  if utf8Len key ≠ 64 ∨ ¬ key.all isAsciiHexdigit then .error .symmetricKeyInvalid else .ok ⟨key⟩

structure VaultKeys where
  secretsKey : SymmetricKey
  membersKey : SymmetricKey
  deriving DecidableEq

/-- X25519 age encryption and the ids derived from a recipient. Sealing draws randomness. -/
class Age where
  toPublic : Str → DevicePublicKey
  appId : DevicePublicKey → AppId
  authId : DevicePublicKey → AuthKeyId
  sealBytes : DevicePublicKey → (plaintext entropy : Str) → MultiDeviceResult AgeArmoredCiphertext
  openIdentityBytes : AgeArmoredCiphertext → (identity : Str) → MultiDeviceResult Str

/-- Installation-local app key: the age identity that unwraps vault DEK envelopes. -/
structure AppKey where
  identity : Str
  deriving DecidableEq

namespace AppKey

variable [Age]

def publicKey (key : AppKey) : DevicePublicKey := Age.toPublic key.identity

def appId (key : AppKey) : AppId := Age.appId key.publicKey

def authId (key : AppKey) : AuthKeyId := Age.authId key.publicKey

def decryptEnvelope (key : AppKey) (envelope : AgeArmoredCiphertext) :
    MultiDeviceResult SymmetricKey := do
  SymmetricKey.parse (← Age.openIdentityBytes envelope key.identity)

end AppKey

end Nook.Auth
