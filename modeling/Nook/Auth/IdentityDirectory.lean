import Nook.Auth.IdentityLegacy
import Nook.Auth.IdentityReplication

set_option autoImplicit false

namespace Nook.Auth

open Nook.Lib Nook.EventLog

/-- Explicit local identity-selection state. -/
inductive IdentitySelection where
  | empty
  | selected (identityId : IdentityId)
  deriving DecidableEq

/-- Browser-independent collection of identities available to one installation. -/
structure IdentityDirectory where
  identities : List IdentityRecord
  selection : IdentitySelection
  retiredAppIds : List AppId
  deriving DecidableEq

/-- A refused transition hands its directory back. -/
structure IdentityDirectoryRejection where
  directory : IdentityDirectory
  cause : MultiDeviceError

structure IdentityDirectoryResolution where
  directory : IdentityDirectory
  identityId : IdentityId

structure IdentityDirectoryVaultKeys where
  directory : IdentityDirectory
  keys : VaultKeys

structure DetachedIdentityRecord where
  directory : IdentityDirectory
  index : Nat
  record : IdentityRecord

/-- Membership of an admitted app key in the local identity directory. -/
inductive AppKeyIdentityMembership where
  | enrolled (identityId : IdentityId)
  | unenrolled

inductive LegacyImportDestination where
  | vaultOwner (identityId : IdentityId)
  | appKeyOwner (identityId : IdentityId)
  | newIdentity

structure IdentityCreation where
  label : Str
  appKey : AppKey
  memberLabel : MemberLabelState

structure DirectoryLegacyVaultImport where
  label : Str
  appKey : AppKey
  storeId : StoreId
  reconciliation : IdentityVaultDekReconciliation

structure DirectoryMemberSigningUpdate where
  identityId : IdentityId
  member : IdentityMemberSigningUpdate

inductive AdoptedIdentityLabel where
  | kept
  | invited (label : Str)

/-- Rename a local identity to the replicated identity that lists its app key. -/
structure ReplicatedIdentityAdoption where
  localIdentityId : IdentityId
  replicatedIdentityId : IdentityId
  label : AdoptedIdentityLabel

/-- A replicated identity whose log lists this installation's app key. -/
structure ReplicatedIdentityAddition where
  label : Str
  membership : ReplicatedIdentityMembership

/-- Whether the local identity already has a replicated control log. -/
inductive LocalIdentityLog where
  | empty
  | replicated
  deriving DecidableEq

structure FreshIdentityNaming where
  appKey : AppKey
  label : Str
  localLog : LocalIdentityLog

structure LocalIdentityKeyRetirement where
  identityId : IdentityId
  appId : AppId

inductive RecoveryRetirement where
  | retireInstallation (appId : AppId)
  | preserveRetiredKeys

/-- What a validation has seen: the ids of identities, apps and vaults so far. -/
structure SeenIds where
  ids : List IdentityId
  appIds : List AppId
  vaults : List StoreId

def IdentityRecord.isFreshLocalIdentity (record : IdentityRecord) (localLog : LocalIdentityLog) :
    Bool :=
  localLog = .empty ∧ record.vaultDeks = [] ∧ record.members.length = 1

/-- Insert an id into a set that has to be without it. -/
def insertNew {α : Type} [DecidableEq α] (cause : α → MultiDeviceError) (seen : List α) (id : α) :
    MultiDeviceResult (List α) :=
  if id ∈ seen then .error (cause id) else .ok (id :: seen)

namespace IdentityDirectory

def new : IdentityDirectory := ⟨[], .empty, []⟩

def rejecting {α : Type} (directory : IdentityDirectory) (result : MultiDeviceResult α) :
    Except IdentityDirectoryRejection α :=
  result.mapError fun cause => ⟨directory, cause⟩

@[simp] theorem rejecting_eq_ok {α : Type} (directory : IdentityDirectory)
    (result : MultiDeviceResult α) (value : α) :
    directory.rejecting result = .ok value ↔ result = .ok value :=
  mapError_eq_ok

theorem rejecting_eq_error {α : Type} {directory : IdentityDirectory}
    {result : MultiDeviceResult α} {rejection : IdentityDirectoryRejection}
    (refused : directory.rejecting result = .error rejection) : rejection.directory = directory := by
  obtain ⟨cause, rfl⟩ := mapError_eq_error refused
  rfl

/-! ### Validation -/

def validateRecord (retired : List AppId) (seen : SeenIds) (record : IdentityRecord) :
    MultiDeviceResult SeenIds := do
  let ids ← insertNew .duplicateIdentity seen.ids record.identityId
  refuse (record.members.any (·.appId ∈ retired)) .retiredAppKey
  let appIds ← (record.members.map (·.appId)).foldlM (insertNew .duplicateAppKeyOwnership)
    seen.appIds
  let vaults ← (record.vaultDeks.map (·.storeId)).foldlM (insertNew .duplicateVaultOwnership)
    seen.vaults
  return ⟨ids, appIds, vaults⟩

def validate (directory : IdentityDirectory) : MultiDeviceResult Unit := do
  let retired := directory.retiredAppIds
  refuse (retired.dedup.length ≠ retired.length) (.invalidDeviceIdentity
    "identity directory contains duplicate retired app ids")
  let seen ← directory.identities.foldlM (validateRecord retired) ⟨[], [], []⟩
  match directory.selection with
  | .empty => return ()
  | .selected identityId =>
    refuse (directory.identities.isEmpty || identityId ∉ seen.ids) .invalidIdentitySelection

def fromRecords (identities : List IdentityRecord) (selection : IdentitySelection) :
    MultiDeviceResult IdentityDirectory := do
  let directory : IdentityDirectory := ⟨identities, selection, []⟩
  directory.validate
  return directory

/-! ### One identity of the directory -/

variable (directory : IdentityDirectory)

def takeIdentity (identityId : IdentityId) :
    Except IdentityDirectoryRejection DetachedIdentityRecord :=
  match directory.identities.findIdx? (·.identityId = identityId),
    directory.identities.find? (·.identityId = identityId) with
  | some index, some record =>
    .ok ⟨{ directory with identities := directory.identities.eraseIdx index }, index, record⟩
  | _, _ => .error ⟨directory, .identityNotFound identityId.asStr⟩

end IdentityDirectory

namespace DetachedIdentityRecord

/-- Put a record in the place that the detached one left. -/
def insert (detached : DetachedIdentityRecord) (record : IdentityRecord) : IdentityDirectory :=
  { detached.directory with
    identities := detached.directory.identities.insertIdx detached.index record }

def update (detached : DetachedIdentityRecord)
    (operation : IdentityRecord → Except IdentityRecordRejection IdentityRecord) :
    Except IdentityDirectoryRejection IdentityDirectory :=
  match operation detached.record with
  | .ok record => .ok (detached.insert record)
  | .error rejected => .error ⟨detached.insert rejected.identity, rejected.cause⟩

def openKeys (detached : DetachedIdentityRecord)
    (operation : IdentityRecord → Except IdentityRecordRejection IdentityVaultKeys) :
    Except IdentityDirectoryRejection IdentityDirectoryVaultKeys :=
  match operation detached.record with
  | .ok opened => .ok ⟨detached.insert opened.identity, opened.keys⟩
  | .error rejected => .error ⟨detached.insert rejected.identity, rejected.cause⟩

end DetachedIdentityRecord

namespace IdentityDirectoryResolution

def select (resolution : IdentityDirectoryResolution) : IdentityDirectoryResolution :=
  { resolution with
    directory := { resolution.directory with selection := .selected resolution.identityId } }

end IdentityDirectoryResolution

namespace IdentityDirectory

variable [Age] (directory : IdentityDirectory)

def ensureAppKeyActive (appKey : AppKey) : MultiDeviceResult Unit :=
  refuse (appKey.appId ∈ directory.retiredAppIds) .retiredAppKey

/-- The identity of a record that lists an app key under its key material. -/
def identityOwnedBy (appKey : AppKey) (record : IdentityRecord) :
    MultiDeviceResult (Option IdentityId) :=
  match record.members.find? (·.appId = appKey.appId) with
  | none => .ok none
  | some member =>
    if member.authId ≠ appKey.authId ∨ member.publicKey ≠ appKey.publicKey then
      .error (.invalidDeviceIdentity "existing app id has different key material")
    else
      .ok (some record.identityId)

def identityForAppKey (appKey : AppKey) : MultiDeviceResult AppKeyIdentityMembership := do
  directory.ensureAppKeyActive appKey
  let owned := (← directory.identities.mapM (identityOwnedBy appKey)).reduceOption
  refuse (owned.length > 1) (.invalidDeviceIdentity "app key belongs to multiple local identities")
  match owned.getLast? with
  | some identityId => return .enrolled identityId
  | none => return .unenrolled

omit [Age] in
def selected : MultiDeviceResult IdentityRecord :=
  match directory.selection with
  | .empty => .error .invalidIdentitySelection
  | .selected identityId =>
    match directory.identities.find? (·.identityId = identityId) with
    | some record => .ok record
    | none => .error .invalidIdentitySelection

omit [Age] in
def vaultOwner (storeId : StoreId) : Option IdentityRecord :=
  directory.identities.find? (·.ownsVault storeId)

/-! ### Creation and selection -/

/-- The record that a creation adds. -/
def createdRecord (request : IdentityCreation) (generated : MultiDeviceResult IdentityId) :
    MultiDeviceResult IdentityRecord := do
  directory.ensureAppKeyActive request.appKey
  let label := trim request.label
  refuse label.isEmpty .identityLabelEmpty
  IdentityRecord.createWithAppKey label request.appKey request.memberLabel generated

def createIdentity (request : IdentityCreation) (generated : MultiDeviceResult IdentityId) :
    Except IdentityDirectoryRejection IdentityDirectoryResolution :=
  directory.rejecting do
    let record ← directory.createdRecord request generated
    return ⟨{ directory with
      identities := directory.identities ++ [record]
      selection := .selected record.identityId }, record.identityId⟩

omit [Age] in
def select (identityId : IdentityId) : Except IdentityDirectoryRejection IdentityDirectory :=
  directory.rejecting do
    refuse (!directory.identities.any (·.identityId = identityId)) (.identityNotFound identityId.asStr)
    return { directory with selection := .selected identityId }

omit [Age] in
/-- Leave known identities visible without an active one. -/
def clearSelection : IdentityDirectory := { directory with selection := .empty }

/-! ### Legacy vaults -/

def legacyImportDestination (request : DirectoryLegacyVaultImport) :
    MultiDeviceResult LegacyImportDestination := do
  directory.ensureAppKeyActive request.appKey
  match directory.vaultOwner request.storeId with
  | some record => return .vaultOwner record.identityId
  | none =>
    match ← directory.identityForAppKey request.appKey with
    | .enrolled identityId => return .appKeyOwner identityId
    | .unenrolled => return .newIdentity

def importNewLegacyIdentity (request : DirectoryLegacyVaultImport)
    (generated : MultiDeviceResult IdentityId) :
    Except IdentityDirectoryRejection IdentityDirectoryResolution :=
  directory.rejecting do
    let record ← IdentityRecord.synthesizeFromLegacyVault request.label
      (.ofAppKey request.appKey .unnamed) request.storeId request.reconciliation.secretsEnvelope
      request.reconciliation.membersEnvelope request.reconciliation.epochUpdate.committedEpoch
      generated
    let resolution : IdentityDirectoryResolution :=
      ⟨{ directory with identities := directory.identities ++ [record] }, record.identityId⟩
    return resolution.select

/-- Associate an imported legacy vault without guessing that the active identity owns it. -/
def importLegacyVault (request : DirectoryLegacyVaultImport)
    (generated : MultiDeviceResult IdentityId) (entropy : Entropy) :
    Except IdentityDirectoryRejection IdentityDirectoryResolution :=
  let vault : IdentityLegacyVaultReconciliation :=
    ⟨request.appKey, request.storeId, request.reconciliation⟩
  match directory.legacyImportDestination request with
  | .error cause => .error ⟨directory, cause⟩
  | .ok (.vaultOwner identityId) => do
    let detached ← directory.takeIdentity identityId
    let updated ← detached.update (·.reconcileLegacyVaultMember vault entropy)
    return IdentityDirectoryResolution.select ⟨updated, identityId⟩
  | .ok (.appKeyOwner identityId) => do
    let detached ← directory.takeIdentity identityId
    let updated ← detached.update (·.importLegacyVault vault entropy)
    return IdentityDirectoryResolution.select ⟨updated, identityId⟩
  | .ok .newIdentity => directory.importNewLegacyIdentity request generated

def reconciliationOwner (request : IdentityLegacyVaultReconciliation) :
    MultiDeviceResult IdentityId := do
  directory.ensureAppKeyActive request.appKey
  match directory.vaultOwner request.storeId with
  | some record => return record.identityId
  | none => .error (.identityNotFound ("vault:".toList ++ request.storeId.asStr))

def reconcileVaultDek (request : IdentityLegacyVaultReconciliation) (entropy : Entropy) :
    Except IdentityDirectoryRejection IdentityDirectoryResolution :=
  match directory.reconciliationOwner request with
  | .error cause => .error ⟨directory, cause⟩
  | .ok identityId => do
    let detached ← directory.takeIdentity identityId
    let updated ← detached.update (·.reconcileLegacyVaultMember request entropy)
    return ⟨updated, identityId⟩

/-! ### Vault keys -/

def vaultOpeningIdentity (request : IdentityVaultKeyOpening) : MultiDeviceResult IdentityId := do
  directory.ensureAppKeyActive request.appKey
  match directory.vaultOwner request.storeId with
  | some owner => return owner.identityId
  | none => return (← directory.selected).identityId

def openOrGenerateVaultDek (request : IdentityVaultKeyOpening)
    (generated : MultiDeviceResult VaultKeys) (entropy : Entropy) :
    Except IdentityDirectoryRejection IdentityDirectoryVaultKeys :=
  match directory.vaultOpeningIdentity request with
  | .error cause => .error ⟨directory, cause⟩
  | .ok identityId => do
    let detached ← directory.takeIdentity identityId
    detached.openKeys (·.openOrGenerateVaultDek request generated entropy)

/-! ### Members -/

omit [Age] in
def setMemberSigningPublicKey (request : DirectoryMemberSigningUpdate) :
    Except IdentityDirectoryRejection IdentityDirectory := do
  let detached ← directory.takeIdentity request.identityId
  detached.update (·.setMemberSigningPublicKey request.member)

omit [Age] in
def addSelectedMember (member : IdentityMember) :
    Except IdentityDirectoryRejection IdentityDirectory :=
  match directory.selected with
  | .error cause => .error ⟨directory, cause⟩
  | .ok identity => do
    let detached ← directory.takeIdentity identity.identityId
    detached.update (·.addMember member)

omit [Age] in
def replaceSelected (record : IdentityRecord) :
    Except IdentityDirectoryRejection IdentityDirectory :=
  directory.rejecting do
    refuse (directory.selection ≠ .selected record.identityId) .invalidIdentitySelection
    refuse (record.members.any (·.appId ∈ directory.retiredAppIds)) .retiredAppKey
    match directory.identities.findIdx? (·.identityId = record.identityId) with
    | none => .error .invalidIdentitySelection
    | some index => return { directory with identities := directory.identities.set index record }

/-! ### Replicated identities -/

omit [Age] in
/-- The app keys that identities other than `identityId` list. -/
def listedElsewhere (identityId : IdentityId) : List AppId :=
  (directory.identities.filter (·.identityId ≠ identityId)).flatMap fun record =>
    record.members.map (·.appId)

/-- Cache replicated membership and this installation's own DEK grants. -/
def applyReplicatedMembership (request : ReplicatedIdentityMembership) :
    Except IdentityDirectoryRejection IdentityDirectory :=
  directory.rejecting do
    match directory.identities.findIdx? (·.identityId = request.identityId),
      directory.identities.find? (·.identityId = request.identityId) with
    | some index, some record =>
      let record ← record.applyReplicatedMembership
        ⟨request, directory.listedElsewhere request.identityId⟩
      let candidate := { directory with identities := directory.identities.set index record }
      candidate.validate
      return candidate
    | _, _ => .error (.identityNotFound request.identityId.asStr)

omit [Age] in
/-- The name that an adopted identity takes. -/
def adoptedLabel (label : AdoptedIdentityLabel) (record : IdentityRecord) : MultiDeviceResult Str :=
  match label with
  | .kept => .ok record.label
  | .invited label => do
    let label := trim label
    refuse label.isEmpty .identityLabelEmpty
    return label

omit [Age] in
/-- Rename a local identity to the replicated identity it belongs to. -/
def adoptReplicatedIdentity (request : ReplicatedIdentityAdoption) :
    Except IdentityDirectoryRejection IdentityDirectory :=
  directory.rejecting do
    refuse (directory.identities.any (·.identityId = request.replicatedIdentityId))
      (.replicatedIdentityAlreadyLocal request.replicatedIdentityId)
    match directory.identities.findIdx? (·.identityId = request.localIdentityId),
      directory.identities.find? (·.identityId = request.localIdentityId) with
    | some index, some record =>
      let label ← adoptedLabel request.label record
      let adopted := { record with
        identityId := request.replicatedIdentityId
        controlEpoch := record.controlEpoch.next
        label }
      let selection :=
        if directory.selection = .selected request.localIdentityId then
          .selected request.replicatedIdentityId
        else
          directory.selection
      let candidate := { directory with
        identities := directory.identities.set index adopted
        selection }
      candidate.validate
      return candidate
    | _, _ => .error (.identityNotFound request.localIdentityId.asStr)

/-- The record that an addition starts as: this app key's own under the replicated id. -/
def addedRecord (request : ReplicatedIdentityAddition)
    (generated : MultiDeviceResult IdentityId) : MultiDeviceResult IdentityRecord := do
  let membership := request.membership
  refuse (directory.identities.any (·.identityId = membership.identityId))
    (.replicatedIdentityAlreadyLocal membership.identityId)
  match ← directory.identityForAppKey membership.appKey with
  | .enrolled identityId => .error (.appKeyBelongsToAnotherIdentity identityId)
  | .unenrolled =>
    let label := trim request.label
    refuse label.isEmpty .identityLabelEmpty
    let record ← IdentityRecord.createWithAppKey label membership.appKey .unnamed generated
    { record with identityId := membership.identityId }.applyReplicatedMembership
      ⟨membership, directory.listedElsewhere membership.identityId⟩

/-- Add a replicated identity beside the identities already here. -/
def addReplicatedIdentity (request : ReplicatedIdentityAddition)
    (generated : MultiDeviceResult IdentityId) :
    Except IdentityDirectoryRejection IdentityDirectory :=
  directory.rejecting do
    let record ← directory.addedRecord request generated
    let selection :=
      if directory.selection = .empty then .selected request.membership.identityId
      else directory.selection
    let candidate := { directory with
      identities := directory.identities ++ [record]
      selection }
    candidate.validate
    return candidate

/-! ### Naming -/

def localIdentityForAppKey (appKey : AppKey) : MultiDeviceResult IdentityRecord := do
  match ← directory.identityForAppKey appKey with
  | .unenrolled => .error .identityEnrollmentRequired
  | .enrolled identityId =>
    match directory.identities.find? (·.identityId = identityId) with
    | some record => return record
    | none => .error (.identityNotFound identityId.asStr)

omit [Age] in
def nameRecord (identityId : IdentityId) (label : Str) (record : IdentityRecord) : IdentityRecord :=
  if record.identityId = identityId then { record with label } else record

/-- Name the app key's local identity while nothing ties it to an identity yet. -/
def nameFreshIdentity (request : FreshIdentityNaming) : MultiDeviceResult IdentityDirectory := do
  refuse (trim request.label).isEmpty .identityLabelEmpty
  let fresh ← directory.localIdentityForAppKey request.appKey
  refuse (!fresh.isFreshLocalIdentity request.localLog) (.identityAlreadyInUse fresh.identityId)
  return { directory with
    identities := directory.identities.map (nameRecord fresh.identityId request.label) }

/-! ### Retirement -/

omit [Age] in
/-- Permanently reject one installation key. -/
def retireAppId (appId : AppId) : IdentityDirectory :=
  if appId ∈ directory.retiredAppIds then directory
  else { directory with retiredAppIds := directory.retiredAppIds ++ [appId] }

omit [Age] in
/-- Drop directory ownership sealed to an inaccessible installation key. -/
def resetForDeviceRecovery (retirement : RecoveryRetirement) : IdentityDirectory :=
  let reset : IdentityDirectory := { directory with identities := [], selection := .empty }
  match retirement with
  | .retireInstallation appId => reset.retireAppId appId
  | .preserveRetiredKeys => reset

omit [Age] in
def admitLocalKeyRetirement (request : LocalIdentityKeyRetirement) :
    MultiDeviceResult (Nat × IdentityRecord) := do
  directory.validate
  match directory.identities.findIdx? (·.identityId = request.identityId),
    directory.identities.find? (·.identityId = request.identityId) with
  | some index, some identity =>
    refuse (!identity.hasAppId request.appId) (.invalidDeviceIdentity
      "retired app key does not belong to the selected identity")
    return (index, identity)
  | _, _ => .error (.identityNotFound request.identityId.asStr)

omit [Age] in
/-- The identity that is selected once another is removed. -/
def firstSelection (identities : List IdentityRecord) : IdentitySelection :=
  match identities.head? with
  | none => .empty
  | some identity => .selected identity.identityId

omit [Age] in
/-- Take a key out of its identity. A one-member identity is removed; a multi-member identity
remains available to its other installations. -/
def withoutLocalKey (request : LocalIdentityKeyRetirement) (index : Nat)
    (identity : IdentityRecord) : Except IdentityDirectoryRejection IdentityDirectory :=
  if identity.members.length = 1 then
    let identities := directory.identities.eraseIdx index
    .ok { directory with identities, selection := firstSelection identities }
  else do
    let detached ← directory.takeIdentity request.identityId
    detached.update (·.removeMember request.appId)

omit [Age] in
/-- Retire one inaccessible installation key without discarding unrelated identities. -/
def retireLocalIdentityKey (request : LocalIdentityKeyRetirement) :
    Except IdentityDirectoryRejection IdentityDirectory :=
  match directory.admitLocalKeyRetirement request with
  | .error cause => .error ⟨directory, cause⟩
  | .ok (index, identity) => do
    let remaining ← directory.withoutLocalKey request index identity
    return remaining.retireAppId request.appId

end IdentityDirectory

end Nook.Auth
