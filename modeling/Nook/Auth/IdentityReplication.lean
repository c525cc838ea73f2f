import Nook.Auth.IdentityRecord

set_option autoImplicit false

namespace Nook.Auth

open Nook.Lib Nook.EventLog

/-- This installation's envelopes for one vault at the vault's current epoch. -/
structure ReplicatedVaultGrant where
  storeId : StoreId
  secretsEnvelope : AgeArmoredCiphertext
  membersEnvelope : AgeArmoredCiphertext

/-- Replicated membership and this installation's DEK grants for one identity. -/
structure ReplicatedIdentityMembership where
  identityId : IdentityId
  appKey : AppKey
  members : List IdentityMember
  revoked : List AppId
  ownGrants : List ReplicatedVaultGrant
  /-- Vaults deleted from the identity: their cached grants are dropped. -/
  removedVaults : List StoreId

/-- One identity's replicated membership, and the app keys other local identities here
already list. -/
structure MembershipMirror where
  request : ReplicatedIdentityMembership
  listedElsewhere : List AppId

/-- A record under a mirror, and whether the mirror changed it. -/
structure MirroredRecord where
  record : IdentityRecord
  changed : Bool

namespace MirroredRecord

variable [Age]

omit [Age] in
def mirrorMember (mirrored : MirroredRecord) (replicated : IdentityMember) :
    MultiDeviceResult MirroredRecord :=
  let record := mirrored.record
  match record.members.find? (·.appId = replicated.appId) with
  | none => .ok ⟨{ record with members := record.members ++ [replicated] }, true⟩
  | some member =>
    if member.bindingToMember replicated = .differentKeyMaterial then
      .error (.invalidDeviceIdentity "replicated member has different key material")
    else if member.signingPublicKey ≠ replicated.signingPublicKey ∨
        member.label ≠ replicated.label then
      let refresh := fun (member : IdentityMember) => { member with
        signingPublicKey := replicated.signingPublicKey
        label := replicated.label }
      let members := updateFirst (·.appId = replicated.appId) refresh record.members
      .ok ⟨{ record with members }, true⟩
    else
      .ok mirrored

omit [Age] in
/-- Drop the revoked members and their envelopes, and the removed vaults. -/
def prune (mirrored : MirroredRecord) (request : ReplicatedIdentityMembership) : MirroredRecord :=
  let record := mirrored.record
  let members := record.members.filter (·.appId ∉ request.revoked)
  let pruned := record.vaultDeks.map (·.withoutEnvelopes (· ∈ request.revoked))
  let vaultDeks := pruned.filter (·.storeId ∉ request.removedVaults)
  ⟨{ record with members, vaultDeks },
    mirrored.changed || members.length != record.members.length ||
      record.vaultDeks.any (fun vault =>
        (vault.withoutEnvelopes (· ∈ request.revoked)).secretsEnvelopes.length !=
            vault.secretsEnvelopes.length ||
          (vault.withoutEnvelopes (· ∈ request.revoked)).membersEnvelopes.length !=
            vault.membersEnvelopes.length) ||
      vaultDeks.length != pruned.length⟩

omit [Age] in
/-- Replace what a vault holds for an app by these envelopes. -/
def fillGrant (ownAppId : AppId) (secrets members : MemberDekEnvelope) (vault : IdentityVaultDek) :
    IdentityVaultDek :=
  let kept := vault.withoutEnvelopes (· = ownAppId)
  { kept with
    secretsEnvelopes := kept.secretsEnvelopes ++ [secrets]
    membersEnvelopes := kept.membersEnvelopes ++ [members] }

/-- Cache a grant of this installation that opens with its key, where one is missing. -/
def cacheGrant (request : ReplicatedIdentityMembership) (mirrored : MirroredRecord)
    (grant : ReplicatedVaultGrant) : MultiDeviceResult MirroredRecord := do
  if grant.storeId ∈ request.removedVaults then
    return mirrored
  let _ ← request.appKey.decryptEnvelope grant.secretsEnvelope
  let _ ← request.appKey.decryptEnvelope grant.membersEnvelope
  let record := mirrored.record
  let ownAppId := request.appKey.appId
  let secrets : MemberDekEnvelope := ⟨ownAppId, grant.secretsEnvelope⟩
  let members : MemberDekEnvelope := ⟨ownAppId, grant.membersEnvelope⟩
  match record.vaultDek grant.storeId with
  | none =>
    return ⟨{ record with vaultDeks := record.vaultDeks ++
      [⟨grant.storeId, .legacyUnknown, [secrets], [members]⟩] }, true⟩
  | some vault =>
    if vault.secretsEnvelopes.any (·.appId = ownAppId) &&
        vault.membersEnvelopes.any (·.appId = ownAppId) then
      return mirrored
    else
      let fill := fillGrant ownAppId secrets members
      let vaultDeks := updateFirst (·.storeId = grant.storeId) fill record.vaultDeks
      return ⟨{ record with vaultDeks }, true⟩

end MirroredRecord

namespace IdentityRecord

variable [Age]

/-- Mirror the replicated members. A member another local identity here already lists is left
out: one key holds one identity on a browser. -/
def applyReplicatedMembership (record : IdentityRecord) (mirror : MembershipMirror) :
    MultiDeviceResult IdentityRecord := do
  let request := mirror.request
  refuse (request.appKey.appId ∈ request.revoked) (.appKeyRevokedFromIdentity record.identityId)
  let _ ← record.boundMember request.appKey
  let mirrored ← (request.members.filter (·.appId ∉ mirror.listedElsewhere)).foldlM
    MirroredRecord.mirrorMember ⟨record, false⟩
  let mirrored ← request.ownGrants.foldlM (MirroredRecord.cacheGrant request)
    (mirrored.prune request)
  let record := mirrored.record
  if mirrored.changed then
    return { record with controlEpoch := record.controlEpoch.next }
  else
    return record

end IdentityRecord

end Nook.Auth
