import Nook.Auth.IdentityDirectory
import Nook.Auth.OwnedRecord

set_option autoImplicit false

namespace Nook.Auth

open Nook.Lib Nook.EventLog

/-- A transition of a directory in place. -/
abbrev DirectoryTransition (α : Type) := EStateM MultiDeviceError IdentityDirectory α

namespace DirectoryTransition

variable [Age]

/-- A transition on a consumed directory. -/
def run {α : Type} (transition : DirectoryTransition α) (directory : IdentityDirectory) :
    Except IdentityDirectoryRejection IdentityDirectory :=
  finish IdentityDirectoryRejection.mk (fun _ next => next) transition directory

omit [Age] in
def selectIdentity (identityId : IdentityId) : DirectoryTransition PUnit :=
  modify fun directory => { directory with selection := .selected identityId }

omit [Age] in
def pushIdentity (record : IdentityRecord) : DirectoryTransition PUnit :=
  modify fun directory => { directory with identities := directory.identities ++ [record] }

def createIdentity (request : IdentityCreation) (generated : MultiDeviceResult IdentityId) :
    DirectoryTransition IdentityId := do
  let directory ← get
  let record ← liftExcept (directory.createdRecord request generated)
  pushIdentity record
  selectIdentity record.identityId
  return record.identityId

omit [Age] in
def select (identityId : IdentityId) : DirectoryTransition PUnit := do
  let directory ← get
  liftExcept <| refuse (!directory.identities.any (·.identityId = identityId))
    (.identityNotFound identityId.asStr)
  selectIdentity identityId

def importNewLegacyIdentity (request : DirectoryLegacyVaultImport)
    (generated : MultiDeviceResult IdentityId) : DirectoryTransition IdentityId := do
  let record ← liftExcept <| IdentityRecord.synthesizeFromLegacyVault request.label
    (.ofAppKey request.appKey .unnamed) request.storeId request.reconciliation.secretsEnvelope
    request.reconciliation.membersEnvelope request.reconciliation.epochUpdate.committedEpoch
    generated
  pushIdentity record
  selectIdentity record.identityId
  return record.identityId

omit [Age] in
def replaceSelected (record : IdentityRecord) : DirectoryTransition PUnit := do
  let directory ← get
  liftExcept <| refuse (directory.selection ≠ .selected record.identityId) .invalidIdentitySelection
  liftExcept <| refuse (record.members.any (·.appId ∈ directory.retiredAppIds)) .retiredAppKey
  match directory.identities.findIdx? (·.identityId = record.identityId) with
  | none => throw .invalidIdentitySelection
  | some index =>
    match directory.identities[index]? with
    | none => throw .invalidIdentitySelection
    | some _ =>
      modify fun directory => { directory with identities := directory.identities.set index record }

/-! ### Transitions of one identity -/

omit [Age] in
/-- Take an identity out, change it and put it back in its place. -/
def updateIdentity (directory : IdentityDirectory) (identityId : IdentityId)
    (transition : RecordTransition PUnit) : Except IdentityDirectoryRejection IdentityDirectory := do
  let detached ← directory.takeIdentity identityId
  detached.update transition.run

omit [Age] in
def openIdentity (directory : IdentityDirectory) (identityId : IdentityId)
    (transition : RecordTransition VaultKeys) :
    Except IdentityDirectoryRejection IdentityDirectoryVaultKeys := do
  let detached ← directory.takeIdentity identityId
  detached.openKeys transition.openKeys

end DirectoryTransition

structure DirectoryOwnedVaultOpening where
  identityId : IdentityId
  vault : IdentityVaultKeyOpening

/-- The operations of a directory that may be refused with it. -/
inductive RefusableOperation where
  | createIdentity (request : IdentityCreation) (generated : MultiDeviceResult IdentityId)
  | select (identityId : IdentityId)
  | importLegacyVault (request : DirectoryLegacyVaultImport)
      (generated : MultiDeviceResult IdentityId) (entropy : Entropy)
  | reconcileVaultDek (request : IdentityLegacyVaultReconciliation) (entropy : Entropy)
  | openOrGenerateVaultDek (request : IdentityVaultKeyOpening)
      (generated : MultiDeviceResult VaultKeys) (entropy : Entropy)
  | openOrGenerateVaultDekForIdentity (request : DirectoryOwnedVaultOpening)
      (generated : MultiDeviceResult VaultKeys) (entropy : Entropy)
  | setMemberSigningPublicKey (request : DirectoryMemberSigningUpdate)
  | addSelectedMember (member : IdentityMember)
  | replaceSelected (record : IdentityRecord)
  | applyReplicatedMembership (request : ReplicatedIdentityMembership)
  | adoptReplicatedIdentity (request : ReplicatedIdentityAdoption)
  | addReplicatedIdentity (request : ReplicatedIdentityAddition)
      (generated : MultiDeviceResult IdentityId)
  | retireLocalIdentityKey (request : LocalIdentityKeyRetirement)

namespace IdentityDirectory

open DirectoryTransition

variable [Age] (directory : IdentityDirectory)

def admitOwnedVaultOpening (request : DirectoryOwnedVaultOpening) : MultiDeviceResult Unit := do
  directory.ensureAppKeyActive request.vault.appKey
  refuse (directory.identities.any fun identity =>
      identity.ownsVault request.vault.storeId && decide (identity.identityId ≠ request.identityId))
    (.duplicateVaultOwnership request.vault.storeId)

/-- Select the identity that a legacy import changed. -/
def importInto (identityId : IdentityId) (transition : RecordTransition PUnit) :
    Except IdentityDirectoryRejection IdentityDirectory := do
  let updated ← updateIdentity directory identityId transition
  return (IdentityDirectoryResolution.select ⟨updated, identityId⟩).directory

/-- The directory that an operation leaves, with its changes in the order of the code. The
three operations on replicated identities change a clone and drop it when they are refused. -/
def refusable : RefusableOperation → Except IdentityDirectoryRejection IdentityDirectory
  | .createIdentity request generated =>
    (DirectoryTransition.createIdentity request generated).run directory
  | .select identityId => (DirectoryTransition.select identityId).run directory
  | .importLegacyVault request generated entropy =>
    let vault : IdentityLegacyVaultReconciliation :=
      ⟨request.appKey, request.storeId, request.reconciliation⟩
    match directory.legacyImportDestination request with
    | .error cause => .error ⟨directory, cause⟩
    | .ok (.vaultOwner identityId) =>
      directory.importInto identityId (RecordTransition.reconcileLegacyVaultMember vault entropy)
    | .ok (.appKeyOwner identityId) =>
      directory.importInto identityId (RecordTransition.importLegacyVault vault entropy)
    | .ok .newIdentity =>
      (DirectoryTransition.importNewLegacyIdentity request generated).run directory
  | .reconcileVaultDek request entropy =>
    match directory.reconciliationOwner request with
    | .error cause => .error ⟨directory, cause⟩
    | .ok identityId => updateIdentity directory identityId
      (RecordTransition.reconcileLegacyVaultMember request entropy)
  | .openOrGenerateVaultDek request generated entropy =>
    match directory.vaultOpeningIdentity request with
    | .error cause => .error ⟨directory, cause⟩
    | .ok identityId => (openIdentity directory identityId
      (RecordTransition.openOrGenerateVaultDek request generated entropy)).map (·.directory)
  | .openOrGenerateVaultDekForIdentity request generated entropy =>
    match directory.admitOwnedVaultOpening request with
    | .error cause => .error ⟨directory, cause⟩
    | .ok () => (openIdentity directory request.identityId
      (RecordTransition.openOrGenerateVaultDek request.vault generated entropy)).map (·.directory)
  | .setMemberSigningPublicKey request => updateIdentity directory request.identityId
    (RecordTransition.setMemberSigningPublicKey request.member)
  | .addSelectedMember member =>
    match directory.selected with
    | .error cause => .error ⟨directory, cause⟩
    | .ok identity => updateIdentity directory identity.identityId
      (RecordTransition.addMember member)
  | .replaceSelected record => (DirectoryTransition.replaceSelected record).run directory
  | .applyReplicatedMembership request => directory.applyReplicatedMembership request
  | .adoptReplicatedIdentity request => directory.adoptReplicatedIdentity request
  | .addReplicatedIdentity request generated => directory.addReplicatedIdentity request generated
  | .retireLocalIdentityKey request =>
    match directory.admitLocalKeyRetirement request with
    | .error cause => .error ⟨directory, cause⟩
    | .ok (index, identity) =>
      if identity.members.length = 1 then
        let identities := directory.identities.eraseIdx index
        let remaining := { directory with identities, selection := firstSelection identities }
        .ok (remaining.retireAppId request.appId)
      else do
        let remaining ← updateIdentity directory request.identityId
          (RecordTransition.removeMember request.appId)
        return remaining.retireAppId request.appId

end IdentityDirectory

end Nook.Auth
