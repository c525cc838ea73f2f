import Nook.Auth.DirectoryOperations
import Nook.Auth.VaultGrantRun

set_option autoImplicit false

namespace Nook.Auth

open Nook.Lib Nook.EventLog

/-- The operations on a directory, each with what it draws at random. -/
inductive DirectoryOperation where
  | createIdentity (request : IdentityCreation) (generated : MultiDeviceResult IdentityId)
  | select (identityId : IdentityId)
  | clearSelection
  | importLegacyVault (request : DirectoryLegacyVaultImport)
      (generated : MultiDeviceResult IdentityId) (entropy : Entropy)
  | reconcileVaultDek (request : IdentityLegacyVaultReconciliation) (entropy : Entropy)
  | openOrGenerateVaultDek (request : IdentityVaultKeyOpening)
      (generated : MultiDeviceResult VaultKeys) (entropy : Entropy)
  | setMemberSigningPublicKey (request : DirectoryMemberSigningUpdate)
  | addSelectedMember (member : IdentityMember)
  | replaceSelected (record : IdentityRecord)
  | applyReplicatedMembership (request : ReplicatedIdentityMembership)
  | adoptReplicatedIdentity (request : ReplicatedIdentityAdoption)
  | addReplicatedIdentity (request : ReplicatedIdentityAddition)
      (generated : MultiDeviceResult IdentityId)
  | nameFreshIdentity (request : FreshIdentityNaming)
  | retireLocalIdentityKey (request : LocalIdentityKeyRetirement)
  | retireAppId (appId : AppId)
  | resetForDeviceRecovery (retirement : RecoveryRetirement)

namespace IdentityDirectory

variable [Age]

def perform (directory : IdentityDirectory) : DirectoryOperation → MultiDeviceResult IdentityDirectory
  | .createIdentity request generated =>
    ((directory.createIdentity request generated).map (·.directory)).mapError (·.cause)
  | .select identityId => (directory.select identityId).mapError (·.cause)
  | .clearSelection => .ok directory.clearSelection
  | .importLegacyVault request generated entropy =>
    ((directory.importLegacyVault request generated entropy).map (·.directory)).mapError (·.cause)
  | .reconcileVaultDek request entropy =>
    ((directory.reconcileVaultDek request entropy).map (·.directory)).mapError (·.cause)
  | .openOrGenerateVaultDek request generated entropy =>
    ((directory.openOrGenerateVaultDek request generated entropy).map (·.directory)).mapError
      (·.cause)
  | .setMemberSigningPublicKey request =>
    (directory.setMemberSigningPublicKey request).mapError (·.cause)
  | .addSelectedMember member => (directory.addSelectedMember member).mapError (·.cause)
  | .replaceSelected record => (directory.replaceSelected record).mapError (·.cause)
  | .applyReplicatedMembership request =>
    (directory.applyReplicatedMembership request).mapError (·.cause)
  | .adoptReplicatedIdentity request =>
    (directory.adoptReplicatedIdentity request).mapError (·.cause)
  | .addReplicatedIdentity request generated =>
    (directory.addReplicatedIdentity request generated).mapError (·.cause)
  | .nameFreshIdentity request => directory.nameFreshIdentity request
  | .retireLocalIdentityKey request =>
    (directory.retireLocalIdentityKey request).mapError (·.cause)
  | .retireAppId appId => .ok (directory.retireAppId appId)
  | .resetForDeviceRecovery retirement => .ok (directory.resetForDeviceRecovery retirement)

/-- What an operation without a validation of its own has to find: a new identity has a new id
and an app key that no identity lists, an added member is new everywhere and not retired, a
replacement keeps to its own ids, and a retired app is in no identity. -/
def Exclusive (directory : IdentityDirectory) : DirectoryOperation → Prop
  | .createIdentity request generated =>
    directory.Unlisted request.appKey.appId ∧ directory.Fresh generated
  | .importLegacyVault request generated _ => (directory.vaultOwner request.storeId).isSome = true ∨
      ¬ directory.Unlisted request.appKey.appId ∨ directory.Fresh generated
  | .addSelectedMember member =>
    member.appId ∉ directory.retiredAppIds ∧ directory.Unlisted member.appId
  | .replaceSelected record => record.memberIds.Nodup ∧ record.storeIds.Nodup ∧
      ∀ other ∈ directory.identities, other.identityId ≠ record.identityId → record.Apart other
  | .retireAppId appId => directory.Unlisted appId
  | _ => True

variable {directory next : IdentityDirectory}

omit [Age] in
theorem map_directory_eq_ok {ε α : Type} {result : Except ε α} {f : α → IdentityDirectory}
    {cause : ε → MultiDeviceError} (accepted : (result.map f).mapError cause = .ok next) :
    ∃ value, result = .ok value ∧ f value = next := by
  cases result with
  | error => cases accepted
  | ok value => exact ⟨value, rfl, by simpa [Except.map, Except.mapError] using accepted⟩

omit [Age] in
theorem Valid.select_of_ok (valid : directory.Valid) {identityId : IdentityId}
    (accepted : directory.select identityId = .ok next) : next.Valid := by
  obtain ⟨⟨⟩, present, done⟩ := bind_eq_ok.mp ((rejecting_eq_ok _ _ _).mp accepted)
  cases done
  rw [refuse_eq_ok, Bool.not_eq_false', List.any_eq_true] at present
  obtain ⟨record, inside, named⟩ := present
  exact valid.select (by simpa using ⟨record, inside, by simpa using named⟩)

omit [Age] in
/-- An operation that validates its outcome. -/
theorem valid_of_validated {candidate : IdentityDirectory}
    (accepted : (candidate.validate >>= fun _ => .ok candidate) = .ok next) : next.Valid := by
  obtain ⟨⟨⟩, validated, same⟩ := bind_eq_ok.mp accepted
  cases same
  exact validate_eq_ok.mp validated

theorem applyReplicatedMembership_valid {request : ReplicatedIdentityMembership}
    (accepted : directory.applyReplicatedMembership request = .ok next) : next.Valid := by
  have done := (rejecting_eq_ok _ _ _).mp accepted
  split at done
  · obtain ⟨record, _, done⟩ := bind_eq_ok.mp done
    exact valid_of_validated done
  · cases done

omit [Age] in
theorem adoptReplicatedIdentity_valid {request : ReplicatedIdentityAdoption}
    (accepted : directory.adoptReplicatedIdentity request = .ok next) : next.Valid := by
  obtain ⟨⟨⟩, _, done⟩ := bind_eq_ok.mp ((rejecting_eq_ok _ _ _).mp accepted)
  split at done
  · obtain ⟨label, _, done⟩ := bind_eq_ok.mp done
    exact valid_of_validated done
  · cases done

theorem addReplicatedIdentity_valid {request : ReplicatedIdentityAddition}
    {generated : MultiDeviceResult IdentityId}
    (accepted : directory.addReplicatedIdentity request generated = .ok next) : next.Valid := by
  obtain ⟨record, _, done⟩ := bind_eq_ok.mp ((rejecting_eq_ok _ _ _).mp accepted)
  exact valid_of_validated done

/-- An accepted operation leaves a valid directory valid exactly when it is exclusive. -/
theorem Valid.perform_iff (valid : directory.Valid) {operation : DirectoryOperation}
    (accepted : directory.perform operation = .ok next) :
    next.Valid ↔ directory.Exclusive operation := by
  cases operation with
  | createIdentity request generated =>
    obtain ⟨created, done, rfl⟩ := map_directory_eq_ok accepted
    exact valid.createIdentity_iff done
  | select identityId =>
    exact iff_of_true (valid.select_of_ok (mapError_eq_ok.mp accepted)) trivial
  | clearSelection =>
    cases accepted
    exact iff_of_true ⟨valid.retired, valid.owned, fun identityId chosen => by cases chosen⟩ trivial
  | importLegacyVault request generated entropy =>
    obtain ⟨imported, done, rfl⟩ := map_directory_eq_ok accepted
    exact valid.importLegacyVault_iff done
  | reconcileVaultDek request entropy =>
    obtain ⟨reconciled, done, rfl⟩ := map_directory_eq_ok accepted
    exact iff_of_true (valid.reconcileVaultDek done) trivial
  | openOrGenerateVaultDek request generated entropy =>
    obtain ⟨opened, done, rfl⟩ := map_directory_eq_ok accepted
    exact iff_of_true (valid.openOrGenerateVaultDek done) trivial
  | setMemberSigningPublicKey request =>
    exact iff_of_true (valid.setMemberSigningPublicKey (mapError_eq_ok.mp accepted)) trivial
  | addSelectedMember member => exact valid.addSelectedMember_iff (mapError_eq_ok.mp accepted)
  | replaceSelected record => exact valid.replaceSelected_iff (mapError_eq_ok.mp accepted)
  | applyReplicatedMembership request =>
    exact iff_of_true (applyReplicatedMembership_valid (mapError_eq_ok.mp accepted)) trivial
  | adoptReplicatedIdentity request =>
    exact iff_of_true (adoptReplicatedIdentity_valid (mapError_eq_ok.mp accepted)) trivial
  | addReplicatedIdentity request generated =>
    exact iff_of_true (addReplicatedIdentity_valid (mapError_eq_ok.mp accepted)) trivial
  | nameFreshIdentity request => exact iff_of_true (valid.nameFreshIdentity accepted) trivial
  | retireLocalIdentityKey request =>
    exact iff_of_true (valid.retireLocalIdentityKey (mapError_eq_ok.mp accepted)) trivial
  | retireAppId appId =>
    cases accepted
    exact valid.retireAppId_iff appId
  | resetForDeviceRecovery retirement =>
    cases accepted
    exact iff_of_true (valid.resetForDeviceRecovery retirement) trivial

/-- The directory after an accepted operation on one that validates also validates, and loads
from its records, exactly when the operation is exclusive. -/
theorem directory_stays_valid (validated : directory.validate = .ok ())
    {operation : DirectoryOperation} (accepted : directory.perform operation = .ok next) :
    (next.validate = .ok () ↔ directory.Exclusive operation) ∧
      (directory.Exclusive operation → fromRecords next.identities next.selection =
        .ok ⟨next.identities, next.selection, []⟩) := by
  have kept := (validate_eq_ok.mp validated).perform_iff accepted
  rw [validate_eq_ok]
  exact ⟨kept, fun exclusive => (kept.mpr exclusive).fromRecords⟩

end IdentityDirectory

end Nook.Auth

namespace Nook.Auth.TestSupport

open Nook.Lib Nook.EventLog

def workId : IdentityId := ⟨"idn_bcdefghijkl".toList⟩

def createPersonal : DirectoryOperation :=
  .createIdentity ⟨"Personal".toList, laptop, .unnamed⟩ (.ok identityId)

/-- A second identity of the same app key. -/
def createWork : DirectoryOperation :=
  .createIdentity ⟨"Work".toList, laptop, .unnamed⟩ (.ok workId)

theorem directory_stays_valid_personal : ∃ directory,
    IdentityDirectory.new.perform createPersonal = .ok directory ∧ directory.identities ≠ [] ∧
      directory.validate = .ok () := by
  obtain ⟨directory, done, holds⟩ := exists_of_passes
    (IdentityDirectory.new.perform createPersonal)
    (fun directory => !directory.identities.isEmpty) (by decide)
  have exclusive : IdentityDirectory.new.Exclusive createPersonal :=
    ⟨fun record inside => absurd inside List.not_mem_nil,
      fun id drawn record inside => absurd inside List.not_mem_nil⟩
  refine ⟨directory, done, ?_, ?_⟩
  · intro none
    simp [none] at holds
  · exact (IdentityDirectory.directory_stays_valid (by decide) done).1.mpr exclusive

/-- Two identities created with one app key do not load. -/
theorem shared_app_key_rejected : ∃ personal both,
    IdentityDirectory.new.perform createPersonal = .ok personal ∧ personal.validate = .ok () ∧
      personal.perform createWork = .ok both ∧
      both.validate = .error (.duplicateAppKeyOwnership laptop.appId) ∧
      IdentityDirectory.fromRecords both.identities both.selection =
        .error (.duplicateAppKeyOwnership laptop.appId) := by
  obtain ⟨personal, created, validated⟩ := exists_of_passes
    (IdentityDirectory.new.perform createPersonal)
    (fun directory => passes (directory.perform createWork) fun both =>
      decide (directory.validate = .ok ()) &&
        decide (both.validate = .error (.duplicateAppKeyOwnership laptop.appId)) &&
        decide (IdentityDirectory.fromRecords both.identities both.selection =
          .error (.duplicateAppKeyOwnership laptop.appId))) (by decide)
  obtain ⟨both, done, refused⟩ := exists_of_passes _ _ validated
  simp only [Bool.and_eq_true, decide_eq_true_eq] at refused
  exact ⟨personal, both, created, refused.1.1, done, refused.1.2, refused.2⟩

end Nook.Auth.TestSupport
