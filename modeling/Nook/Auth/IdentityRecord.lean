import Nook.Auth.AppKey
import Nook.Lib.FirstMatch
import Nook.Lib.Owned
import Nook.Lib.Steps

set_option autoImplicit false

namespace Nook.Auth

open Nook.Lib Nook.EventLog

/-- One app-key member of an identity. -/
structure IdentityMember where
  appId : AppId
  authId : AuthKeyId
  publicKey : DevicePublicKey
  signingPublicKey : DeviceSigningPublicKey
  label : MemberLabelState
  deriving DecidableEq

inductive IdentityMemberKeyBinding where
  | matching
  | differentKeyMaterial
  deriving DecidableEq

structure IdentityVaultEventId where
  asStr : Str
  deriving DecidableEq

inductive IdentityVaultDekEpoch where
  | legacyUnknown
  | known (keyEpoch checkpoint : IdentityVaultEventId)
  deriving DecidableEq

structure MemberDekEnvelope where
  appId : AppId
  envelope : AgeArmoredCiphertext
  deriving DecidableEq

/-- Identity-held DEK envelopes for one vault. -/
structure IdentityVaultDek where
  storeId : StoreId
  keyEpoch : IdentityVaultDekEpoch
  secretsEnvelopes : List MemberDekEnvelope
  membersEnvelopes : List MemberDekEnvelope
  deriving DecidableEq

/-- A count of the changes of a record, in 64 bits. -/
structure IdentityControlEpoch where
  value : Nat
  deriving DecidableEq

namespace IdentityControlEpoch

def initial : IdentityControlEpoch := ⟨1⟩

/-- `saturating_add(1)`. -/
def next (epoch : IdentityControlEpoch) : IdentityControlEpoch := ⟨min (epoch.value + 1) (2 ^ 64 - 1)⟩

end IdentityControlEpoch

/-- Local identity control record. Owns per-vault DEKs. -/
structure IdentityRecord where
  identityId : IdentityId
  label : Str
  controlEpoch : IdentityControlEpoch
  members : List IdentityMember
  vaultDeks : List IdentityVaultDek
  deriving DecidableEq

/-- A refused transition hands its record back. -/
structure IdentityRecordRejection where
  identity : IdentityRecord
  cause : MultiDeviceError

structure IdentityVaultKeys where
  identity : IdentityRecord
  keys : VaultKeys

structure IdentityVaultKeyOpening where
  appKey : AppKey
  storeId : StoreId

structure IdentityMemberVaultGrant where
  member : IdentityMember
  keysByStore : List (StoreId × VaultKeys)

structure IdentityMemberSigningUpdate where
  appId : AppId
  signingPublicKey : DeviceSigningPublicKey

/-- The randomness of the seals of one wrapping, in the order they are made. -/
abbrev Entropy := Nat → Str

variable [Age]

namespace IdentityMember

def bindingToAppKey (member : IdentityMember) (app : AppKey) : IdentityMemberKeyBinding :=
  if member.authId = app.authId ∧ member.publicKey = app.publicKey then .matching
  else .differentKeyMaterial

omit [Age] in
def bindingToMember (member other : IdentityMember) : IdentityMemberKeyBinding :=
  if member.authId = other.authId ∧ member.publicKey = other.publicKey then .matching
  else .differentKeyMaterial

/-- The member an app key enrols as. -/
def ofAppKey (app : AppKey) (label : MemberLabelState) : IdentityMember :=
  ⟨app.appId, app.authId, app.publicKey, .unavailable, label⟩

end IdentityMember

namespace IdentityVaultDek

omit [Age] in
def appEnvelopes (vault : IdentityVaultDek) (appId : AppId) :
    Option (MemberDekEnvelope × MemberDekEnvelope) :=
  match vault.secretsEnvelopes.find? (·.appId = appId),
    vault.membersEnvelopes.find? (·.appId = appId) with
  | some secrets, some members => some (secrets, members)
  | _, _ => none

omit [Age] in
/-- Whether both lists of a grant name the same apps. -/
def coversSameApps (grant : IdentityVaultDek) : Bool :=
  grant.secretsEnvelopes.length = grant.membersEnvelopes.length ∧
    ∀ entry ∈ grant.secretsEnvelopes,
      (grant.membersEnvelopes.filter (·.appId = entry.appId)).length = 1

omit [Age] in
/-- Drop the envelopes of a vault that name one of these apps. -/
def withoutEnvelopes (vault : IdentityVaultDek) (removed : AppId → Bool) : IdentityVaultDek :=
  { vault with
    secretsEnvelopes := vault.secretsEnvelopes.filter fun entry => !removed entry.appId
    membersEnvelopes := vault.membersEnvelopes.filter fun entry => !removed entry.appId }

/-- Seal both keys to one member. -/
def wrapVaultKeys (keys : VaultKeys) (entropy : Entropy) (member : IdentityMember × Nat) :
    MultiDeviceResult (MemberDekEnvelope × MemberDekEnvelope) := do
  let secrets ← Age.sealBytes member.1.publicKey keys.secretsKey.asStr (entropy (2 * member.2))
  let members ← Age.sealBytes member.1.publicKey keys.membersKey.asStr (entropy (2 * member.2 + 1))
  return (⟨member.1.appId, secrets⟩, ⟨member.1.appId, members⟩)

def wrapVaultKeysForMembers (keys : VaultKeys) (members : List IdentityMember) (storeId : StoreId)
    (entropy : Entropy) : MultiDeviceResult IdentityVaultDek := do
  let envelopes ← members.zipIdx.mapM (wrapVaultKeys keys entropy)
  return ⟨storeId, .legacyUnknown, envelopes.map Prod.fst, envelopes.map Prod.snd⟩

end IdentityVaultDek

namespace IdentityRecord

omit [Age] in
/-- The record of a transition, or the record it left untouched. -/
def rejecting {α : Type} (record : IdentityRecord) (result : MultiDeviceResult α) :
    Except IdentityRecordRejection α :=
  result.mapError fun cause => ⟨record, cause⟩

omit [Age] in
@[simp] theorem rejecting_eq_ok {α : Type} (record : IdentityRecord)
    (result : MultiDeviceResult α) (value : α) :
    record.rejecting result = .ok value ↔ result = .ok value :=
  mapError_eq_ok

omit [Age] in
theorem rejecting_eq_error {α : Type} {record : IdentityRecord} {result : MultiDeviceResult α}
    {rejection : IdentityRecordRejection} (refused : record.rejecting result = .error rejection) :
    rejection.identity = record := by
  obtain ⟨cause, rfl⟩ := mapError_eq_error refused
  rfl

/-- Create an identity that already has one app-key member. -/
def createWithAppKey (label : Str) (appKey : AppKey) (memberLabel : MemberLabelState)
    (generated : MultiDeviceResult IdentityId) : MultiDeviceResult IdentityRecord := do
  return ⟨← generated, label, .initial, [.ofAppKey appKey memberLabel], []⟩

omit [Age] in
/-- Whether this identity authorizes the supplied public app-key member. -/
def hasAppId (record : IdentityRecord) (appId : AppId) : Bool :=
  record.members.any (·.appId = appId)

omit [Age] in
def vaultDek (record : IdentityRecord) (storeId : StoreId) : Option IdentityVaultDek :=
  record.vaultDeks.find? (·.storeId = storeId)

omit [Age] in
def ownsVault (record : IdentityRecord) (storeId : StoreId) : Bool :=
  (record.vaultDek storeId).isSome

/-- The member of an app key, with the key material of the app key. -/
def boundMember (record : IdentityRecord) (appKey : AppKey) : MultiDeviceResult IdentityMember :=
  match record.members.find? (·.appId = appKey.appId) with
  | none => .error .identityEnrollmentRequired
  | some member =>
    if member.bindingToAppKey appKey = .differentKeyMaterial then
      .error (.invalidDeviceIdentity "existing app id has different key material")
    else
      .ok member

/-- Generate vault DEKs and wrap them to every current member. -/
def generateVaultDek (record : IdentityRecord) (storeId : StoreId)
    (generated : MultiDeviceResult VaultKeys) (entropy : Entropy) :
    Except IdentityRecordRejection IdentityVaultKeys :=
  record.rejecting do
    refuse record.members.isEmpty (.invalidDeviceIdentity
      "identity must have at least one app key before creating a vault")
    refuse (record.vaultDeks.any (·.storeId = storeId)) (.invalidDeviceIdentity
      "identity already holds a DEK for this vault")
    let keys ← generated
    let vaultDek ← IdentityVaultDek.wrapVaultKeysForMembers keys record.members storeId entropy
    return ⟨{ record with
      controlEpoch := record.controlEpoch.next
      vaultDeks := record.vaultDeks ++ [vaultDek] }, keys⟩

/-- Reopen a previously committed DEK on retry; a vault without one has not been created. -/
def existingVaultKeys (record : IdentityRecord) (request : IdentityVaultKeyOpening) :
    MultiDeviceResult (Option VaultKeys) := do
  let _ ← record.boundMember request.appKey
  match record.vaultDek request.storeId with
  | none => return none
  | some vault =>
    match vault.appEnvelopes request.appKey.appId with
    | none => .error .identityEnrollmentRequired
    | some (secrets, members) =>
      return some {
        secretsKey := ← request.appKey.decryptEnvelope secrets.envelope
        membersKey := ← request.appKey.decryptEnvelope members.envelope }

def openOrGenerateVaultDek (record : IdentityRecord) (request : IdentityVaultKeyOpening)
    (generated : MultiDeviceResult VaultKeys) (entropy : Entropy) :
    Except IdentityRecordRejection IdentityVaultKeys :=
  match record.existingVaultKeys request with
  | .ok (some keys) => .ok ⟨record, keys⟩
  | .ok none => record.generateVaultDek request.storeId generated entropy
  | .error cause => .error ⟨record, cause⟩

omit [Age] in
/-- The current recipients of a grant, as the record lists them. -/
def authorizedMembers (record : IdentityRecord) (grant : IdentityVaultDek) :
    MultiDeviceResult (List IdentityMember) :=
  grant.secretsEnvelopes.mapM fun entry =>
    match record.members.find? (·.appId = entry.appId) with
    | some candidate => .ok candidate
    | none => .error (.invalidDeviceIdentity "vault grant references an unknown identity member")

/-- The grant of one vault with one more recipient, and its place. -/
def grantReplacement (record : IdentityRecord) (member : IdentityMember) (storeId : StoreId)
    (keys : VaultKeys) (entropy : Entropy) : MultiDeviceResult (Nat × IdentityVaultDek) :=
  match record.vaultDeks.findIdx? (·.storeId = storeId), record.vaultDek storeId with
  | some index, some grant => do
    refuse (!grant.coversSameApps) (.invalidDeviceIdentity
      "identity vault grant has inconsistent recipient envelopes")
    let authorized ← record.authorizedMembers grant
    let authorized :=
      if authorized.all (·.appId ≠ member.appId) then authorized ++ [member] else authorized
    let replacement ← IdentityVaultDek.wrapVaultKeysForMembers keys authorized storeId entropy
    return (index, { replacement with keyEpoch := grant.keyEpoch })
  | _, _ => .error (.invalidDeviceIdentity "identity does not own the vault being granted")

/-- Grant a newly authenticated member only to vaults the authorizing app key could already
open, keeping the recipients that each vault has. -/
def grantMemberToVaults (record : IdentityRecord) (request : IdentityMemberVaultGrant)
    (entropy : Nat → Entropy) : Except IdentityRecordRejection IdentityRecord :=
  record.rejecting do
    let replacements ← request.keysByStore.zipIdx.mapM fun ((storeId, keys), turn) =>
      record.grantReplacement request.member storeId keys (entropy turn)
    return { record with
      vaultDeks := replacements.foldl (fun vaults (index, replacement) =>
        vaults.set index replacement) record.vaultDeks
      controlEpoch :=
        if request.keysByStore.isEmpty then record.controlEpoch else record.controlEpoch.next }

omit [Age] in
def addMember (record : IdentityRecord) (member : IdentityMember) :
    Except IdentityRecordRejection IdentityRecord :=
  record.rejecting do
    refuse (record.hasAppId member.appId) (.invalidDeviceIdentity
      "app key is already a member of this identity")
    return { record with
      members := record.members ++ [member]
      controlEpoch := record.controlEpoch.next }

omit [Age] in
def setMemberSigningPublicKey (record : IdentityRecord) (request : IdentityMemberSigningUpdate) :
    Except IdentityRecordRejection IdentityRecord :=
  record.rejecting <|
    match record.members.find? (·.appId = request.appId) with
    | none => .error .identityEnrollmentRequired
    | some member =>
      if member.signingPublicKey = request.signingPublicKey then
        .ok record
      else
        .ok { record with
          members := updateFirst (·.appId = request.appId)
            (fun member => { member with signingPublicKey := request.signingPublicKey })
            record.members
          controlEpoch := record.controlEpoch.next }

omit [Age] in
def removeMember (record : IdentityRecord) (appId : AppId) :
    Except IdentityRecordRejection IdentityRecord :=
  record.rejecting <|
    match record.members.findIdx? (·.appId = appId) with
    | none => .error (.invalidDeviceIdentity "app key is not a member of this identity")
    | some index => do
      refuse (record.members.length = 1) (.invalidDeviceIdentity
        "identity must keep at least one app key")
      return { record with
        vaultDeks := record.vaultDeks.map (·.withoutEnvelopes (· = appId))
        members := record.members.eraseIdx index
        controlEpoch := record.controlEpoch.next }

end IdentityRecord

end Nook.Auth
