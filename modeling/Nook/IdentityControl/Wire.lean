import Nook.EventLog.Event
import Nook.Lib.OrderedMap

set_option autoImplicit false

namespace Nook.IdentityControl

open Nook.Lib Nook.EventLog

/-- Supported `schema_version` values on the identity control wire. -/
abbrev IdentityEventSchemaVersion := UInt32

namespace IdentityEventSchemaVersion

def v1 : IdentityEventSchemaVersion := 1
def current : IdentityEventSchemaVersion := v1

def isSupported (version : IdentityEventSchemaVersion) : Bool := version == v1

end IdentityEventSchemaVersion

/-- Public keys of one app-key installation in an identity. -/
structure IdentityMemberKeys where
  appId : AppId
  encryptionPublicKey : DevicePublicKey
  signingPublicKey : DeviceSigningPublicKey
  label : MemberLabel
  deriving DecidableEq

/-- The device a member's app runs on. -/
inductive MemberDevice where
  | own
  | sameAs (appId : AppId)
  deriving DecidableEq

/-- One vault DEK pair wrapped to one member's encryption public key. -/
structure MemberVaultDek where
  appId : AppId
  secretsKeyCiphertext : AgeArmoredCiphertext
  membersKeyCiphertext : AgeArmoredCiphertext
  deriving DecidableEq

/-- The identity's name sealed to one member's encryption public key. -/
structure MemberSealedName where
  appId : AppId
  nameCiphertext : AgeArmoredCiphertext
  deriving DecidableEq

/-- A vault DEK pair at one vault key epoch, wrapped to the member being approved. -/
structure IdentityVaultDekGrant where
  storeId : StoreId
  keyEpoch : EventId
  secretsKeyCiphertext : AgeArmoredCiphertext
  membersKeyCiphertext : AgeArmoredCiphertext
  deriving DecidableEq

inductive S3KeyPrefix where
  | bucketRoot
  | keyPrefix (path : Str)
  deriving DecidableEq

/-- An S3-compatible bucket location: endpoint, bucket, and key prefix. -/
structure S3MountTarget where
  endpoint : Str
  bucket : Str
  keyPrefix : S3KeyPrefix
  deriving DecidableEq

/-- Credential-free replication target of an identity mount. -/
inductive IdentityMountTarget where
  | github (repository : Str)
  | googleDrive (folderId : Str)
  | iCloud (shareTarget : Str)
  | localFolder (directoryName : Str)
  | s3 (target : S3MountTarget)
  deriving DecidableEq

/-- One sync-provider mount owned by an identity. -/
structure IdentityProviderMount where
  mountId : ProviderMountId
  label : Str
  target : IdentityMountTarget
  deriving DecidableEq

/-- A one-time invitation a member issues with an enrollment code. -/
structure IdentityInvite where
  inviteId : IdentityInviteId
  signingPublicKey : DeviceSigningPublicKey
  expiresAt : IsoTimestamp
  deriving DecidableEq

inductive RecoveryStrength where
  | standard
  | high
  deriving DecidableEq

/-- Atomic operations recorded in the identity control log. -/
inductive IdentityControlOperation where
  | identityCreated (founder : IdentityMemberKeys)
  | memberJoinRequested (member : IdentityMemberKeys)
  | memberApproved (member : IdentityMemberKeys) (vaultDeks : List IdentityVaultDekGrant)
      (device : MemberDevice)
  | memberJoinDenied (appId : AppId)
  | memberInvited (invite : IdentityInvite)
  | memberJoinedByInvite (inviteId : IdentityInviteId) (member : IdentityMemberKeys)
      (inviteSignature : Ed25519Signature) (vaultDeks : List IdentityVaultDekGrant)
  | recoveryKeyAdded (member : IdentityMemberKeys) (sealedSecret : RecoverySealedSecret)
      (strength : RecoveryStrength)
  | memberRevoked (appId : AppId)
  | memberRenamed (appId : AppId) (label : MemberLabel)
  | vaultRegistered (storeId : StoreId) (keyEpoch : EventId) (recipients : List MemberVaultDek)
  | vaultDekGranted (storeId : StoreId) (keyEpoch : EventId) (recipients : List MemberVaultDek)
  | vaultRemoved (storeId : StoreId)
  | providerMounted (mount : IdentityProviderMount)
  | providerUnmounted (mountId : ProviderMountId)
  | identityNamed (recipients : List MemberSealedName)
  deriving DecidableEq

def IdentityControlOperation.isIdentityCreated : IdentityControlOperation → Bool
  | identityCreated _ => true
  | _ => false

/-- Signed identity control body (everything except the signature). -/
structure IdentityEventBody where
  schemaVersion : IdentityEventSchemaVersion
  identityId : IdentityId
  actorId : AuthKeyId
  actorSigningPublicKey : DeviceSigningPublicKey
  parents : List EventId
  createdAt : IsoTimestamp
  operations : List IdentityControlOperation
  deriving DecidableEq

/-- Full signed identity control event. -/
structure IdentityEvent where
  body : IdentityEventBody
  signature : Ed25519Signature
  deriving DecidableEq

/-- What the identity control log adds to the third-party operations: the JSON of
its own bodies and of flat objects, age recipients, and the generated texts of errors. -/
class IdentityExternal extends External where
  identityBodyJson : IdentityEventBody → EventResult CanonicalEventBodyBytes
  flatObjectJson : List (Str × Str) → EventResult CanonicalEventBodyBytes
  ageRecipient : Str → Except String Str
  errorText : EventError → String

variable [IdentityExternal]

/-- The first eight bytes of the digest of a recipient. -/
def AppKeyDerivation.appId (recipient : Str) : AppId :=
  ⟨(External.sha256Hex (recipient.flatMap String.utf8EncodeChar)).take 16⟩

def DevicePublicKey.tryAppId (key : DevicePublicKey) : Except String AppId :=
  (IdentityExternal.ageRecipient key.asStr).map AppKeyDerivation.appId

/-- Validate the key tuple and return the member's event actor id. -/
def IdentityMemberKeys.signingActor (keys : IdentityMemberKeys) : EventResult AuthKeyId := do
  ensure (!keys.signingPublicKey.isEmpty)
    (.identityControlInvalid "identity members require an Ed25519 signing key")
  let derived ← (DevicePublicKey.tryAppId keys.encryptionPublicKey).mapError .identityControlInvalid
  ensure (derived = keys.appId) (.identityControlInvalid
    ("app id " ++ String.ofList keys.appId.asStr ++ " does not match its encryption public key"))
  SigningIdentity.actorIdForPublicKeyHex keys.signingPublicKey.asStr

/-- Named values that bind an invite to the member who uses it. -/
structure IdentityInviteProof where
  identityId : IdentityId
  inviteId : IdentityInviteId
  member : IdentityMemberKeys

namespace IdentityInviteProof

def purpose : Str := "nook-identity-invite-join-v1".toList

def message (proof : IdentityInviteProof) : EventResult CanonicalEventBodyBytes :=
  IdentityExternal.flatObjectJson [
    ("purpose".toList, purpose),
    ("identity_id".toList, proof.identityId.asStr),
    ("invite_id".toList, proof.inviteId.asStr),
    ("app_id".toList, proof.member.appId.asStr),
    ("encryption_public_key".toList, proof.member.encryptionPublicKey.asStr),
    ("signing_public_key".toList, proof.member.signingPublicKey.asStr)]

/-- Whether `signature` is the invite key's proof over this member. -/
def verify (proof : IdentityInviteProof) (invite : IdentityInvite)
    (signature : Ed25519Signature) : EventResult Unit := do
  let inviteKey ← SigningIdentity.verifyingKeyFromPublicKeyHex invite.signingPublicKey.asStr
  signature.verify (← proof.message) inviteKey

end IdentityInviteProof

namespace IdentityEventBody

/-- Parent lists are sorted before hashing; repetitions stay. -/
def toCanonicalBytes (body : IdentityEventBody) : EventResult CanonicalEventBodyBytes :=
  IdentityExternal.identityBodyJson { body with parents := body.parents.mergeSort }

def eventId (body : IdentityEventBody) : EventResult EventId := do
  return EventId.fromBodyBytes (← body.toCanonicalBytes)

omit [IdentityExternal] in
def isGenesis (body : IdentityEventBody) : Bool := body.parents.isEmpty

end IdentityEventBody

namespace IdentityEvent

def id (event : IdentityEvent) : EventResult EventId := event.body.eventId

def verifyActorSignature (event : IdentityEvent) : EventResult Unit := do
  let publicKey := event.body.actorSigningPublicKey
  ensure (!publicKey.isEmpty) .missingActorSigningPublicKey
  let verifyingKey ← SigningIdentity.verifyingKeyFromPublicKeyHex publicKey.asStr
  let signingActor ← SigningIdentity.actorIdForVerifyingKey verifyingKey
  ensure (signingActor = event.body.actorId)
    (.actorSigningKeyMismatch event.body.actorId.asStr signingActor.asStr)
  event.signature.verify (← event.body.toCanonicalBytes) verifyingKey

/-- Whether a list names each of its values once. -/
def unique {α : Type} [DecidableEq α] (values : List α) : Bool :=
  values.dedup.length == values.length

def checkOneGrantPerVault (vaultDeks : List IdentityVaultDekGrant) : EventResult Unit :=
  ensure (unique (vaultDeks.map IdentityVaultDekGrant.storeId))
    (.identityControlInvalid "a member is granted each vault at most once")

/-- Whether the event has one operation and the member signed it. -/
def isSoleAndSignedBy (event : IdentityEvent) (member : IdentityMemberKeys) : EventResult Bool :=
  if event.body.operations.length ≠ 1 then .ok false
  else do return decide ((← member.signingActor) = event.body.actorId)

/-- The structure check of one operation of an event that is no genesis. -/
def validateOperation (event : IdentityEvent) : IdentityControlOperation → EventResult Unit
  | .memberJoinRequested member => do
    ensure (← event.isSoleAndSignedBy member) (.identityControlInvalid
      "a join request must be the sole operation, signed by the joiner")
  | .memberApproved member vaultDeks _ => do
    discard member.signingActor
    checkOneGrantPerVault vaultDeks
  | .memberInvited invite =>
    discard (SigningIdentity.verifyingKeyFromPublicKeyHex invite.signingPublicKey.asStr)
  | .memberJoinedByInvite _ member _ vaultDeks => do
    ensure (← event.isSoleAndSignedBy member) (.identityControlInvalid
      "an invite join must be the sole operation, signed by the joiner")
    checkOneGrantPerVault vaultDeks
  | .vaultRegistered _ _ recipients =>
    ensure (unique (recipients.map MemberVaultDek.appId) && !recipients.isEmpty)
      (.identityControlInvalid "vault DEK recipients must be non-empty and unique")
  | .vaultDekGranted _ _ recipients =>
    ensure (unique (recipients.map MemberVaultDek.appId) && !recipients.isEmpty)
      (.identityControlInvalid "vault DEK recipients must be non-empty and unique")
  | .identityNamed recipients =>
    ensure (unique (recipients.map MemberSealedName.appId) && !recipients.isEmpty)
      (.identityControlInvalid "identity name recipients must be non-empty and unique")
  | .identityCreated _ | .recoveryKeyAdded .. | .memberJoinDenied _ | .memberRevoked _
  | .memberRenamed .. | .vaultRemoved _ | .providerMounted _ | .providerUnmounted _ => .ok ()

def validateOperationStructure (event : IdentityEvent) : EventResult Unit :=
  if event.body.isGenesis then
    match event.body.operations with
    | [.identityCreated founder] => do
      ensure ((← founder.signingActor) = event.body.actorId)
        (.identityControlInvalid "identity genesis must be signed by its founder")
    | _ => .error (.identityControlInvalid
      "identity genesis must be one identity-created operation")
  else if event.body.operations.any IdentityControlOperation.isIdentityCreated then
    .error (.identityControlInvalid "only the parentless genesis may create an identity")
  else event.body.operations.forM event.validateOperation

omit [IdentityExternal] in
def sharesDeviceWithItself : IdentityControlOperation → Bool
  | .memberApproved member _ (.sameAs appId) => appId = member.appId
  | _ => false

/-- An approved member runs beside another app, never beside itself. -/
def checkMemberDevices (event : IdentityEvent) : EventResult Unit :=
  ensure (!event.body.operations.any sharesDeviceWithItself)
    (.identityControlInvalid "a member cannot share a device with itself")

/-- A recovery passphrase is a member tuple like any other. -/
def checkRecoveryMembers (event : IdentityEvent) : EventResult Unit :=
  event.body.operations.forM fun
    | .recoveryKeyAdded member _ _ => discard member.signingActor
    | _ => .ok ()

/-- Validate schema, identity binding, structure, and signature. -/
def validateEnvelope (event : IdentityEvent) (expected : IdentityId) : EventResult EventId := do
  let body := event.body
  ensure (IdentityEventSchemaVersion.isSupported body.schemaVersion)
    (.unsupportedIdentitySchemaVersion body.schemaVersion)
  ensure (body.identityId = expected) (.identityControlInvalid
    ("event belongs to identity " ++ String.ofList body.identityId.asStr ++ " instead of " ++
      String.ofList expected.asStr))
  ensure (!body.operations.isEmpty)
    (.identityControlInvalid "identity events require at least one operation")
  body.parents.forM fun parent => discard (EventId.parse parent.asStr)
  event.validateOperationStructure
  event.checkMemberDevices
  event.checkRecoveryMembers
  event.verifyActorSignature
  event.id

omit [IdentityExternal] in
/-- The invite join this event carries, when it is one. -/
def inviteJoin (event : IdentityEvent) :
    Option (IdentityInviteId × IdentityMemberKeys × Ed25519Signature) :=
  match event.body.operations with
  | [.memberJoinedByInvite inviteId member inviteSignature _] =>
    some (inviteId, member, inviteSignature)
  | _ => none

/-- Self-signed join requests are the only operations an unauthorized actor may publish. -/
def isSelfSignedJoinRequest (event : IdentityEvent) : Bool :=
  match event.body.operations with
  | [.memberJoinRequested member] =>
    match member.signingActor with
    | .ok actor => actor = event.body.actorId
    | .error _ => false
  | _ => false

end IdentityEvent

end Nook.IdentityControl
