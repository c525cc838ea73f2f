import Nook.IdentityControl.Projection

set_option autoImplicit false

namespace Nook.IdentityControl

open Nook.Lib Nook.EventLog

/-- What the builders add to the third-party operations: the hexadecimal form of
a key, and sealing to a recipient. -/
class IdentitySealing extends IdentityExternal where
  hexEncode : Bytes → Str
  sealBytes : DevicePublicKey → Bytes → Except String AgeArmoredCiphertext

/-- An Ed25519 signing key: its verifying key and the signatures it makes. -/
structure SigningKey where
  verifyingKey : Bytes
  sign : CanonicalEventBodyBytes → Ed25519Signature

/-- The two symmetric keys of a vault. -/
structure VaultKeys where
  secretsKey : Str
  membersKey : Str

/-- Named values required to sign one identity control event. -/
structure IdentityEventSigning where
  signingKey : SigningKey
  createdAt : IsoTimestamp

/-- One vault's DEK at a key epoch, opened by the acting member. -/
structure OpenedVaultDek where
  storeId : StoreId
  keyEpoch : EventId
  keys : VaultKeys

/-- Named values required to approve a pending join. -/
structure IdentityApprovalRequest where
  appId : AppId
  vaults : List OpenedVaultDek

/-- Named values required to add an app a member was shown directly. -/
structure IdentityMemberAddition where
  member : IdentityMemberKeys
  vaults : List OpenedVaultDek
  device : MemberDevice

/-- Named values a member needs to add a recovery passphrase. -/
structure IdentityRecoveryAddition where
  member : IdentityMemberKeys
  sealedSecret : RecoverySealedSecret
  strength : RecoveryStrength
  vaults : List OpenedVaultDek

/-- Named values a recovery passphrase needs to approve a new app key. -/
structure IdentityRecoveryApproval where
  recovery : AppId
  member : IdentityMemberKeys
  vaults : List OpenedVaultDek

variable [IdentitySealing]

namespace IdentityEvent

def sign (body : IdentityEventBody) (signingKey : SigningKey) : EventResult IdentityEvent := do
  let actor ← SigningIdentity.actorIdForVerifyingKey signingKey.verifyingKey
  ensure (actor = body.actorId) (.actorSigningKeyMismatch body.actorId.asStr actor.asStr)
  return ⟨body, signingKey.sign (← body.toCanonicalBytes)⟩

def signed (identityId : IdentityId) (parents : List EventId)
    (operations : List IdentityControlOperation) (signing : IdentityEventSigning) :
    EventResult IdentityEvent := do
  let verifyingKey := signing.signingKey.verifyingKey
  let body : IdentityEventBody := {
    schemaVersion := IdentityEventSchemaVersion.current
    identityId := identityId
    actorId := ← SigningIdentity.actorIdForVerifyingKey verifyingKey
    actorSigningPublicKey := .ed25519Hex (IdentitySealing.hexEncode verifyingKey)
    parents := parents
    createdAt := signing.createdAt
    operations := operations }
  sign body signing.signingKey

/-- Create the founder-signed genesis event. -/
def genesis (identityId : IdentityId) (founder : IdentityMemberKeys)
    (signing : IdentityEventSigning) : EventResult IdentityEvent :=
  signed identityId [] [.identityCreated founder] signing

end IdentityEvent

/-- Sign operations on top of every applicable head. -/
def IdentityControlLog.buildAppend (log : IdentityControlLog)
    (operations : List IdentityControlOperation) (signing : IdentityEventSigning) :
    EventResult IdentityEvent := do
  let heads := log.applicableHeads
  ensure (!heads.isEmpty)
    (.identityControlInvalid "identity log has no applicable genesis to extend")
  IdentityEvent.signed log.identityId heads operations signing

namespace IdentityMemberKeys

def sealText (keys : IdentityMemberKeys) (plaintext : Str) : EventResult AgeArmoredCiphertext :=
  (IdentitySealing.sealBytes keys.encryptionPublicKey
    (plaintext.flatMap String.utf8EncodeChar)).mapError .identityControlInvalid

def wrapVaultKeys (member : IdentityMemberKeys) (keys : VaultKeys) : EventResult MemberVaultDek := do
  return ⟨member.appId, ← member.sealText keys.secretsKey, ← member.sealText keys.membersKey⟩

/-- Each opened vault's DEK pair wrapped to this member. -/
def vaultDekGrants (member : IdentityMemberKeys) (vaults : List OpenedVaultDek) :
    EventResult (List IdentityVaultDekGrant) :=
  vaults.mapM fun opened => do
    let wrapped ← member.wrapVaultKeys opened.keys
    return ⟨opened.storeId, opened.keyEpoch, wrapped.secretsKeyCiphertext,
      wrapped.membersKeyCiphertext⟩

end IdentityMemberKeys

namespace IdentityControlState

omit [IdentitySealing] in
def recoveryMember (state : IdentityControlState) (appId : AppId) : Option IdentityControlMember :=
  state.members.find? fun member => member.kind.isRecovery && member.keys.appId = appId

omit [IdentitySealing] in
/-- A new member must receive every vault the identity owns, each at its current
key epoch. -/
def requireEveryVault (state : IdentityControlState) (vaults : List OpenedVaultDek) :
    EventResult Unit :=
  state.vaults.forM fun vault =>
    ensure (vaults.any fun opened =>
        opened.storeId = vault.storeId && opened.keyEpoch = vault.currentKeyEpoch)
      (.identityApprovalIncomplete vault.storeId.asStr)

/-- Approve a pending join and wrap every owned vault's DEK to the joiner. -/
def approvalOperation (state : IdentityControlState) (request : IdentityApprovalRequest) :
    EventResult IdentityControlOperation :=
  match state.pendingJoin request.appId with
  | none => .error (.identityControlInvalid
      ("no pending identity join for app " ++ String.ofList request.appId.asStr))
  | some join => do
    state.requireEveryVault request.vaults
    return .memberApproved join.member (← join.member.vaultDekGrants request.vaults) .own

omit [IdentitySealing] in
/-- Whether the device a new app is on is a member's, if it is another app's. -/
def checkDevice (state : IdentityControlState) (member : IdentityMemberKeys) :
    MemberDevice → EventResult Unit
  | .own => .ok ()
  | .sameAs appId =>
    ensure (state.member appId).isSome (.identityControlInvalid
      ("app " ++ String.ofList member.appId.asStr ++ " cannot share the device of app " ++
        String.ofList appId.asStr ++ ", which is not a member"))

omit [IdentitySealing] in
/-- Only an app that is no member can become one. -/
def checkNewMember (state : IdentityControlState) (member : IdentityMemberKeys) : EventResult Unit :=
  ensure (state.member member.appId).isNone (.identityControlInvalid
    ("app " ++ String.ofList member.appId.asStr ++ " is already an identity member"))

/-- Add an app a member was shown directly, with no join request before it. -/
def additionOperation (state : IdentityControlState) (request : IdentityMemberAddition) :
    EventResult IdentityControlOperation := do
  state.checkNewMember request.member
  discard request.member.signingActor
  state.checkDevice request.member request.device
  state.requireEveryVault request.vaults
  return .memberApproved request.member (← request.member.vaultDekGrants request.vaults)
    request.device

/-- Add a recovery passphrase as a member, and wrap every vault's current DEK to
it in the same event. -/
def recoveryAdditionOperations (state : IdentityControlState) (addition : IdentityRecoveryAddition) :
    EventResult (List IdentityControlOperation) := do
  let member := addition.member
  state.checkNewMember member
  discard member.signingActor
  state.requireEveryVault addition.vaults
  let grants ← addition.vaults.mapM fun opened => do
    return .vaultDekGranted opened.storeId opened.keyEpoch [← member.wrapVaultKeys opened.keys]
  return .recoveryKeyAdded member addition.sealedSecret addition.strength :: grants

/-- The recovery passphrase approves a new app key on the device it was typed on. -/
def recoveryApprovalOperation (state : IdentityControlState) (approval : IdentityRecoveryApproval) :
    EventResult IdentityControlOperation := do
  ensure (state.recoveryMember approval.recovery).isSome (.identityControlInvalid
    (String.ofList approval.recovery.asStr ++ " is not a recovery passphrase of this identity"))
  state.checkNewMember approval.member
  discard approval.member.signingActor
  state.requireEveryVault approval.vaults
  return .memberApproved approval.member (← approval.member.vaultDekGrants approval.vaults) .own

omit [IdentitySealing] in
/-- Revoke an active member: an app key or a recovery passphrase. The identity
always keeps one app key. -/
def revocationOperation (state : IdentityControlState) (appId : AppId) :
    EventResult IdentityControlOperation :=
  match state.member appId with
  | none => .error (.identityControlInvalid
      ("app " ++ String.ofList appId.asStr ++ " is not an active identity member"))
  | some member =>
    if !member.kind.isRecovery && state.appMembers.length = 1 then
      .error (.identityControlInvalid "an identity must keep at least one app key")
    else .ok (.memberRevoked appId)

/-! ### What an installation appends -/

/-- The operations that the builders make of a projected state, in any number and
order, beside operations that change no membership. -/
inductive Built (state : IdentityControlState) : List IdentityControlOperation → Prop
  | approval {request : IdentityApprovalRequest} {operation : IdentityControlOperation}
      (built : state.approvalOperation request = .ok operation) : Built state [operation]
  | addition {request : IdentityMemberAddition} {operation : IdentityControlOperation}
      (built : state.additionOperation request = .ok operation) : Built state [operation]
  | recoveryAddition {addition : IdentityRecoveryAddition}
      {operations : List IdentityControlOperation}
      (built : state.recoveryAdditionOperations addition = .ok operations) : Built state operations
  | recoveryApproval {approval : IdentityRecoveryApproval} {operation : IdentityControlOperation}
      (built : state.recoveryApprovalOperation approval = .ok operation) : Built state [operation]
  | revocation {appId : AppId} {operation : IdentityControlOperation}
      (built : state.revocationOperation appId = .ok operation) : Built state [operation]
  | other {operation : IdentityControlOperation} (unadmitting : operation.admits = none)
      (unrevoking : operation.revokes = none) : Built state [operation]
  | both {first second : List IdentityControlOperation} (left : Built state first)
      (right : Built state second) : Built state (first ++ second)

end IdentityControlState

end Nook.IdentityControl
