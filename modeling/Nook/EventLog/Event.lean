import Nook.EventLog.Text

set_option autoImplicit false

namespace Nook.EventLog

abbrev Bytes := List UInt8

/-- Canonical JSON text of an event body; it is hashed and signed as its UTF-8 bytes. -/
abbrev CanonicalEventBodyBytes := Str

/-! ### Wire data -/

/-- Supported `schema_version` values on the event wire. -/
abbrev VaultEventSchemaVersion := UInt32

namespace VaultEventSchemaVersion

def v2 : VaultEventSchemaVersion := 2
def v3 : VaultEventSchemaVersion := 3
def current : VaultEventSchemaVersion := v3

def isSupported (version : VaultEventSchemaVersion) : Bool := v2 ≤ version && version ≤ current

end VaultEventSchemaVersion

inductive SecretType where
  | login
  | apiKey
  | seedPhrase
  | secureNote
  | passkey
  | authenticator
  | creditCard
  | fileAttachment
  | person
  | address
  | identityDocument
  | internationalAccount
  | domesticAccount
  deriving DecidableEq

/-- An explicit secret tag or the historical untyped record representation. -/
inductive RecordTypeDeclaration where
  | secret (secretType : SecretType)
  | undeclared
  deriving DecidableEq

/-- One record on disk. -/
structure StoredSecretRecord where
  key : SecretId
  secretType : RecordTypeDeclaration
  value : StoredRecordPayload
  deriving DecidableEq

/-- Encrypted secret payload embedded in an event operation. -/
structure EncryptedSecretPayload where
  id : SecretId
  secretType : SecretType
  ciphertext : OpaqueCiphertext
  identityFingerprint : SecretFingerprint
  fingerprint : SecretFingerprint
  deriving DecidableEq

def EncryptedSecretPayload.toStored (payload : EncryptedSecretPayload) : StoredSecretRecord where
  key := payload.id
  secretType := .secret payload.secretType
  value := ⟨payload.ciphertext.asStr⟩

/-- One sentinel share encrypted to a participant device. -/
structure SentinelShareIssuedPayload where
  deviceId : DeviceId
  version : UInt32
  threshold : UInt8
  requiredParticipants : UInt8
  shareIndex : UInt8
  ciphertext : AgeArmoredCiphertext
  deriving DecidableEq

/-- Checkpoint metadata replacement: an omitted legacy field retains the
previous metadata, an explicit empty array clears every record. -/
inductive EpochMetadataState where
  | legacyRetain
  | replace (records : List StoredSecretRecord)
  deriving DecidableEq

/-- The vault name re-encrypted under the new epoch's key. -/
inductive EpochVaultName where
  | unnamed
  | named (name : OpaqueCiphertext)
  deriving DecidableEq

/-- Atomic domain operations recorded in the immutable event log. -/
inductive VaultOperation where
  | vaultImported (sourceContentHash : Sha256Hex) (secrets : List EncryptedSecretPayload)
  | secretCreated (secret : EncryptedSecretPayload)
  | secretDeleted (secretId : SecretId)
  | secretReplaced (oldId : SecretId) (newSecret : EncryptedSecretPayload)
  | secretConflictResolved (oldId chosenSecretId : SecretId) (rejectedSecretIds : List SecretId)
  | joinRequested (deviceId : DeviceId) (encryptionPublicKey : DevicePublicKey)
      (signingPublicKey : DeviceSigningPublicKey) (label : MemberLabel)
  | joinApproved (deviceId : DeviceId) (encryptionPublicKey : DevicePublicKey)
      (signingPublicKey : DeviceSigningPublicKey) (label : MemberLabel)
      (secretsKeyCiphertext membersKeyCiphertext : AgeArmoredCiphertext)
  | sentinelParticipantEnrolled (deviceId : DeviceId) (encryptionPublicKey : DevicePublicKey)
      (signingPublicKey : DeviceSigningPublicKey) (label : MemberLabel)
  | sentinelSharesIssued (shares : List SentinelShareIssuedPayload)
  | joinDenied (deviceId : DeviceId)
  | memberRenamed (deviceId : DeviceId) (label : MemberLabel)
  | deviceRevoked (deviceId : DeviceId)
  | vaultCleared
  | vaultNamed (name : OpaqueCiphertext)
  | epochCheckpoint (secrets : List EncryptedSecretPayload) (membersCheckpointHash : Sha256Hex)
      (rotatedMetaRecords : EpochMetadataState) (vaultName : EpochVaultName)
  deriving DecidableEq

namespace VaultOperation

def sentinelShareRecordPrefix : Str := "sentinel_share:".toList

/-- Whether immutable operation history proves Sentinel architecture. -/
def isSentinelArchitectureEvidence : VaultOperation → Bool
  | sentinelParticipantEnrolled .. => true
  | sentinelSharesIssued _ => true
  | epochCheckpoint _ _ (.replace records) _ =>
    records.any fun record => startsWith record.key.asStr sentinelShareRecordPrefix
  | _ => false

def isVaultImported : VaultOperation → Bool
  | vaultImported .. => true
  | _ => false

def isEpochCheckpoint : VaultOperation → Bool
  | epochCheckpoint .. => true
  | _ => false

end VaultOperation

/-- Signed event body (everything except the signature field). -/
structure VaultEventBody where
  schemaVersion : VaultEventSchemaVersion
  storeId : StoreId
  actorId : AuthKeyId
  actorSigningPublicKey : DeviceSigningPublicKey
  parents : List EventId
  createdAt : IsoTimestamp
  keyEpoch : EventId
  operations : List VaultOperation
  deriving DecidableEq

/-- Full signed vault event. -/
structure VaultEvent where
  body : VaultEventBody
  signature : Ed25519Signature
  deriving DecidableEq

/-- Event-log errors, without their display texts. -/
inductive EventError where
  | validation (cause : ValidationError)
  | eventIdMissingPrefix (raw : Str)
  | eventIdInvalidDigest (hex : Str)
  | eventBodySerialize (cause : String)
  | eventSerialize (cause : String)
  | parseStoredEvent (cause : String)
  | parseRemoteEvent (cause : String)
  | signatureMissingPrefix (raw : Str)
  | signatureInvalidHex
  | signatureWrongLength
  | signatureVerificationFailed
  | missingActorSigningPublicKey
  | actorSigningPublicKeyWrongLength
  | actorSigningPublicKeyInvalid
  | actorSigningKeyMismatch (actorId signingKeyActorId : Str)
  | unauthorizedActor (actorId : Str)
  | unsupportedSchemaVersion (version : VaultEventSchemaVersion)
  | missingEpochCheckpointReplacement (field : String)
  | invalidEpochCheckpointStructure (reason : String)
  | eventStoreIdMismatch (expected actual : Str)
  | missingEventParents
  | multipleGenesisRoots
  | remoteEventIdMismatch (eventId : Str)
  | graphCycle
  | topologicalSortStalled
  | missingEvent (eventId : Str)
  | projectionStoreMismatch
  | identityControlInvalid (reason : String)
  | unsupportedIdentitySchemaVersion (version : UInt32)
  | identityApprovalIncomplete (storeId : Str)
  deriving DecidableEq

abbrev EventResult (α : Type) := Except EventError α

/-- Leave with an error unless a check passes. -/
def ensure (check : Bool) (cause : EventError) : EventResult Unit :=
  if check then .ok () else .error cause

@[simp] theorem ensure_eq_ok (check : Bool) (cause : EventError) :
    ensure check cause = .ok () ↔ check = true := by
  cases check <;> simp [ensure]

/-- The third-party operations under the log: JSON encoding, SHA-256, base64,
hexadecimal, and Ed25519 over 32-byte keys. -/
class External where
  canonicalJson : VaultEventBody → EventResult CanonicalEventBodyBytes
  sha256Base64Url : CanonicalEventBodyBytes → Str
  sha256Hex : Bytes → Str
  urlSafeNoPadDecode : Str → Option Bytes
  hexDecode : Str → Option Bytes
  isVerifyingKey : Bytes → Bool
  ed25519Verify : Bytes → CanonicalEventBodyBytes → Bytes → Bool

variable [External]

/-! ### Identifiers and signatures -/

namespace EventId

def parse (raw : Str) : EventResult EventId :=
  let trimmed := trim raw
  match stripPrefix trimmed "sha256u:".toList with
  | none => .error (.eventIdMissingPrefix trimmed)
  | some encoded =>
    if utf8Len encoded ≠ 43 then .error (.eventIdInvalidDigest encoded)
    else
      match External.urlSafeNoPadDecode encoded with
      | none => .error (.eventIdInvalidDigest encoded)
      | some bytes =>
        if bytes.length ≠ 32 then .error (.eventIdInvalidDigest encoded)
        else .ok ⟨"sha256u:".toList ++ encoded⟩

def fromBodyBytes (body : CanonicalEventBodyBytes) : EventId :=
  ⟨"sha256u:".toList ++ External.sha256Base64Url body⟩

end EventId

namespace SigningIdentity

def verifyingKeyFromPublicKeyHex (raw : Str) : EventResult Bytes :=
  match External.hexDecode (trim raw) with
  | none => .error .signatureInvalidHex
  | some bytes =>
    if bytes.length ≠ 32 then .error .actorSigningPublicKeyWrongLength
    else if External.isVerifyingKey bytes then .ok bytes
    else .error .actorSigningPublicKeyInvalid

def actorIdForVerifyingKey (verifyingKey : Bytes) : EventResult AuthKeyId :=
  (AuthKeyId.fromDigestHex (External.sha256Hex verifyingKey)).mapError .validation

def actorIdForPublicKeyHex (raw : Str) : EventResult AuthKeyId := do
  actorIdForVerifyingKey (← verifyingKeyFromPublicKeyHex raw)

end SigningIdentity

def Ed25519Signature.verify (signature : Ed25519Signature) (body : CanonicalEventBodyBytes)
    (verifyingKey : Bytes) : EventResult Unit :=
  match stripPrefix signature.asStr "ed25519:".toList with
  | none => .error (.signatureMissingPrefix signature.asStr)
  | some hex =>
    match External.hexDecode hex with
    | none => .error .signatureInvalidHex
    | some bytes =>
      if bytes.length ≠ 64 then .error .signatureWrongLength
      else if External.ed25519Verify verifyingKey body bytes then .ok ()
      else .error .signatureVerificationFailed

/-! ### Event bodies -/

inductive EpochCheckpointRequirement where
  | notRequired
  | securityRotationParent (parent : EventId)
  deriving DecidableEq

inductive SecurityRotationTrigger where
  | other
  | deviceRevoked
  deriving DecidableEq

namespace VaultEventBody

def securityRotationTrigger (body : VaultEventBody) : SecurityRotationTrigger :=
  match body.operations with
  | [.deviceRevoked _] => .deviceRevoked
  | _ => .other

def epochCheckpointRequirement (body : VaultEventBody) : EventResult EpochCheckpointRequirement :=
  let checkpoints := body.operations.countP VaultOperation.isEpochCheckpoint
  if checkpoints = 0 ∨ body.schemaVersion < VaultEventSchemaVersion.v3 then .ok .notRequired
  else if checkpoints ≠ 1 ∨ body.operations.length ≠ 1 then
    .error (.invalidEpochCheckpointStructure "checkpoint must be the event's sole operation")
  else
    match body.parents with
    | [parent] =>
      if body.keyEpoch ≠ parent then
        .error (.invalidEpochCheckpointStructure
          "checkpoint key epoch must equal its direct parent id")
      else .ok (.securityRotationParent parent)
    | _ =>
      .error (.invalidEpochCheckpointStructure "checkpoint must have exactly one direct parent")

/-- Parent lists are sorted before hashing; repetitions stay. -/
def toCanonicalBytes (body : VaultEventBody) : EventResult CanonicalEventBodyBytes :=
  External.canonicalJson { body with parents := body.parents.mergeSort }

def eventId (body : VaultEventBody) : EventResult EventId := do
  return EventId.fromBodyBytes (← body.toCanonicalBytes)

end VaultEventBody

namespace VaultEvent

def id (event : VaultEvent) : EventResult EventId := event.body.eventId

def verifySignature (event : VaultEvent) (verifyingKey : Bytes) : EventResult Unit := do
  event.signature.verify (← event.body.toCanonicalBytes) verifyingKey

def validateActorSignature (event : VaultEvent) : EventResult Unit := do
  let publicKey := event.body.actorSigningPublicKey
  ensure (!publicKey.isEmpty) .missingActorSigningPublicKey
  let verifyingKey ← SigningIdentity.verifyingKeyFromPublicKeyHex publicKey.asStr
  let signingKeyActorId ← SigningIdentity.actorIdForVerifyingKey verifyingKey
  ensure (signingKeyActorId = event.body.actorId)
    (.actorSigningKeyMismatch event.body.actorId.asStr signingKeyActorId.asStr)
  event.verifySignature verifyingKey

/-- The current schema requires an explicit metadata replacement. -/
def retainsLegacyMetadata : VaultOperation → Bool
  | .epochCheckpoint _ _ .legacyRetain _ => true
  | _ => false

def validateEnvelope (event : VaultEvent) (expectedStoreId : StoreId) : EventResult EventId := do
  ensure event.body.schemaVersion.isSupported
    (.unsupportedSchemaVersion event.body.schemaVersion)
  ensure (event.body.storeId = expectedStoreId)
    (.eventStoreIdMismatch expectedStoreId.asStr event.body.storeId.asStr)
  ensure (event.body.schemaVersion < VaultEventSchemaVersion.v3 ||
      !event.body.operations.any retainsLegacyMetadata)
    (.missingEpochCheckpointReplacement "rotated_meta_records")
  ensure (!event.body.parents.isEmpty || event.body.operations.any VaultOperation.isVaultImported)
    .missingEventParents
  event.body.parents.forM fun parent => discard (EventId.parse parent.asStr)
  discard (EventId.parse event.body.keyEpoch.asStr)
  event.validateActorSignature
  event.id

end VaultEvent

end Nook.EventLog
