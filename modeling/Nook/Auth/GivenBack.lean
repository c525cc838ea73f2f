import Nook.Auth.DirectoryLoads
import Nook.Auth.LocalIdentityKeyring
import Nook.Auth.OwnedDirectory

set_option autoImplicit false

namespace Nook.Auth

open Nook.Lib Nook.EventLog

section

variable [Age] (directory : IdentityDirectory)

namespace DirectoryTransition

theorem run_createIdentity (request : IdentityCreation) (generated : MultiDeviceResult IdentityId) :
    (createIdentity request generated).run directory =
      (directory.createIdentity request generated).map (·.directory) := by
  unfold createIdentity run IdentityDirectory.createIdentity IdentityDirectory.rejecting
  rw [finish_get]
  cases directory.createdRecord request generated <;> rfl

omit [Age] in
theorem run_select (identityId : IdentityId) :
    (select identityId).run directory = directory.select identityId := by
  unfold select run IdentityDirectory.select IdentityDirectory.rejecting
  rw [finish_get]
  exact finish_read fun _ present => rfl

theorem run_importNewLegacyIdentity (request : DirectoryLegacyVaultImport)
    (generated : MultiDeviceResult IdentityId) :
    (importNewLegacyIdentity request generated).run directory =
      (directory.importNewLegacyIdentity request generated).map (·.directory) := by
  unfold importNewLegacyIdentity run IdentityDirectory.importNewLegacyIdentity
    IdentityDirectory.rejecting
  cases IdentityRecord.synthesizeFromLegacyVault request.label
    (.ofAppKey request.appKey .unnamed) request.storeId request.reconciliation.secretsEnvelope
    request.reconciliation.membersEnvelope request.reconciliation.epochUpdate.committedEpoch
    generated <;> rfl

omit [Age] in
theorem run_replaceSelected (record : IdentityRecord) :
    (replaceSelected record).run directory = directory.replaceSelected record := by
  unfold replaceSelected run IdentityDirectory.replaceSelected IdentityDirectory.rejecting
  rw [finish_get]
  refine finish_read fun _ chosen => finish_read fun _ active => ?_
  cases placed : directory.identities.findIdx? (·.identityId = record.identityId) with
  | none => rfl
  | some index =>
    obtain ⟨before, other, after, split, place, _⟩ := mem_of_findIdx? placed
    have found : directory.identities[index]? = some other := by
      simp [split, ← place]
    simp only [found]
    rfl

end DirectoryTransition

namespace IdentityDirectory

omit [Age] in
/-- An identity that is put back unchanged leaves the directory as it was. -/
theorem insert_takeIdentity {identityId : IdentityId} {detached : DetachedIdentityRecord}
    (taken : directory.takeIdentity identityId = .ok detached) :
    detached.insert detached.record = directory := by
  obtain ⟨_, rewrites⟩ := takeIdentity_eq_ok taken
  obtain ⟨others, rewritten⟩ := rewrites detached.record
  obtain ⟨before, after, whole, again, _⟩ := rewritten.split
  have identities := again.trans whole.symm
  have selection := rewritten.selection
  have retired := rewritten.retired
  cases inserted : detached.insert detached.record with
  | mk ownIdentities ownSelection ownRetired =>
    rw [inserted] at identities selection retired
    simp only at identities selection retired
    rw [identities, selection, retired]

omit [Age] in
theorem takeIdentity_eq_error {identityId : IdentityId} {rejection : IdentityDirectoryRejection}
    (refused : directory.takeIdentity identityId = .error rejection) :
    rejection.directory = directory := by
  unfold takeIdentity at refused
  split at refused
  · cases refused
  · cases refused
    rfl

variable {directory} {identityId : IdentityId} {rejection : IdentityDirectoryRejection}

omit [Age] in
/-- A refused change of one identity puts it back in its place. -/
theorem updateIdentity_eq_error {transition : RecordTransition PUnit}
    (gives : ∀ record refusal, transition.run record = .error refusal → refusal.identity = record)
    (refused : DirectoryTransition.updateIdentity directory identityId transition =
      .error rejection) : rejection.directory = directory := by
  unfold DirectoryTransition.updateIdentity at refused
  cases taken : directory.takeIdentity identityId with
  | error cause =>
    rw [taken] at refused
    cases refused
    exact takeIdentity_eq_error directory taken
  | ok detached =>
    rw [taken] at refused
    change detached.update transition.run = _ at refused
    unfold DetachedIdentityRecord.update at refused
    cases changed : transition.run detached.record with
    | ok record => simp [changed] at refused
    | error refusal =>
      simp only [changed, Except.error.injEq] at refused
      rw [← refused, gives _ _ changed]
      exact insert_takeIdentity directory taken

omit [Age] in
theorem openIdentity_eq_error {transition : RecordTransition VaultKeys}
    (gives : ∀ record refusal, transition.openKeys record = .error refusal →
      refusal.identity = record)
    (refused : (DirectoryTransition.openIdentity directory identityId transition).map
      (·.directory) = .error rejection) : rejection.directory = directory := by
  unfold DirectoryTransition.openIdentity at refused
  cases taken : directory.takeIdentity identityId with
  | error cause =>
    rw [taken] at refused
    cases refused
    exact takeIdentity_eq_error directory taken
  | ok detached =>
    rw [taken] at refused
    change (detached.openKeys transition.openKeys).map (·.directory) = _ at refused
    unfold DetachedIdentityRecord.openKeys at refused
    cases changed : transition.openKeys detached.record with
    | ok record => simp [changed, Except.map] at refused
    | error refusal =>
      simp only [changed, Except.map, Except.error.injEq] at refused
      rw [← refused, gives _ _ changed]
      exact insert_takeIdentity directory taken

end IdentityDirectory

end

/-! ### Records -/

/-- The operations of a record that may be refused with it. -/
inductive RecordOperation where
  | generateVaultDek (storeId : StoreId) (generated : MultiDeviceResult VaultKeys)
      (entropy : Entropy)
  | openOrGenerateVaultDek (request : IdentityVaultKeyOpening)
      (generated : MultiDeviceResult VaultKeys) (entropy : Entropy)
  | grantMemberToVaults (request : IdentityMemberVaultGrant) (entropy : Nat → Entropy)
  | addMember (member : IdentityMember)
  | setMemberSigningPublicKey (request : IdentityMemberSigningUpdate)
  | removeMember (appId : AppId)
  | reconcileLegacyVaultMember (request : IdentityLegacyVaultReconciliation) (entropy : Entropy)
  | importLegacyVault (request : IdentityLegacyVaultReconciliation) (entropy : Entropy)

namespace IdentityRecord

variable [Age] {record : IdentityRecord} {rejection : IdentityRecordRejection}

open RecordTransition

/-- The record that an operation leaves, with its changes in the order of the code. -/
def refusable (record : IdentityRecord) :
    RecordOperation → Except IdentityRecordRejection IdentityRecord
  | .generateVaultDek storeId generated entropy =>
    ((RecordTransition.generateVaultDek storeId generated entropy).openKeys record).map (·.identity)
  | .openOrGenerateVaultDek request generated entropy =>
    ((RecordTransition.openOrGenerateVaultDek request generated entropy).openKeys record).map
      (·.identity)
  | .grantMemberToVaults request entropy =>
    (RecordTransition.grantMemberToVaults request entropy).run record
  | .addMember member => (RecordTransition.addMember member).run record
  | .setMemberSigningPublicKey request =>
    (RecordTransition.setMemberSigningPublicKey request).run record
  | .removeMember appId => (RecordTransition.removeMember appId).run record
  | .reconcileLegacyVaultMember request entropy =>
    (RecordTransition.reconcileLegacyVaultMember request entropy).run record
  | .importLegacyVault request entropy =>
    (RecordTransition.importLegacyVault request entropy).run record

/-- The operations in place are those of the record, refusals included. -/
theorem refusable_eq (operation : RecordOperation) : record.refusable operation =
    match operation with
    | .generateVaultDek storeId generated entropy =>
      (record.generateVaultDek storeId generated entropy).map (·.identity)
    | .openOrGenerateVaultDek request generated entropy =>
      (record.openOrGenerateVaultDek request generated entropy).map (·.identity)
    | .grantMemberToVaults request entropy => record.grantMemberToVaults request entropy
    | .addMember member => record.addMember member
    | .setMemberSigningPublicKey request => record.setMemberSigningPublicKey request
    | .removeMember appId => record.removeMember appId
    | .reconcileLegacyVaultMember request entropy =>
      record.reconcileLegacyVaultMember request entropy
    | .importLegacyVault request entropy => record.importLegacyVault request entropy := by
  cases operation with
  | generateVaultDek storeId generated entropy =>
    exact congrArg (Except.map (·.identity))
      (openKeys_generateVaultDek record storeId generated entropy)
  | openOrGenerateVaultDek request generated entropy =>
    exact congrArg (Except.map (·.identity))
      (openKeys_openOrGenerateVaultDek record request generated entropy)
  | grantMemberToVaults request entropy => exact run_grantMemberToVaults record request entropy
  | addMember member => exact run_addMember record member
  | setMemberSigningPublicKey request => exact run_setMemberSigningPublicKey record request
  | removeMember appId => exact run_removeMember record appId
  | reconcileLegacyVaultMember request entropy =>
    exact run_reconcileLegacyVaultMember record request entropy
  | importLegacyVault request entropy => exact run_importLegacyVault record request entropy

theorem existing_gives_back {request : IdentityVaultKeyOpening}
    {generated : MultiDeviceResult VaultKeys} {entropy : Entropy}
    (refused : record.openOrGenerateVaultDek request generated entropy = .error rejection) :
    rejection.identity = record := by
  unfold openOrGenerateVaultDek at refused
  split at refused
  · cases refused
  · exact rejecting_eq_error refused
  · cases refused
    rfl

/-- A refused operation gives the record back. -/
theorem refusable_gives_back {operation : RecordOperation}
    (refused : record.refusable operation = .error rejection) : rejection.identity = record := by
  rw [refusable_eq] at refused
  cases operation with
  | generateVaultDek => exact rejecting_eq_error (map_eq_error refused)
  | openOrGenerateVaultDek => exact existing_gives_back (map_eq_error refused)
  | grantMemberToVaults => exact rejecting_eq_error refused
  | addMember => exact rejecting_eq_error refused
  | setMemberSigningPublicKey => exact rejecting_eq_error refused
  | removeMember => exact rejecting_eq_error refused
  | reconcileLegacyVaultMember => exact rejecting_eq_error refused
  | importLegacyVault => exact rejecting_eq_error refused

end IdentityRecord

/-! ### Directories -/

namespace IdentityDirectory

variable [Age] {directory : IdentityDirectory} {rejection : IdentityDirectoryRejection}

omit [Age] in
theorem importInto_gives_back {identityId : IdentityId} {transition : RecordTransition PUnit}
    (gives : ∀ record refusal, transition.run record = .error refusal → refusal.identity = record)
    (refused : directory.importInto identityId transition = .error rejection) :
    rejection.directory = directory := by
  unfold importInto at refused
  rcases bind_eq_error.mp refused with first | ⟨updated, _, later⟩
  · exact updateIdentity_eq_error gives first
  · cases later

/-- A refused operation gives the directory back: the order of the identities, the selection
and the retired ids. -/
theorem refusable_gives_back {operation : RefusableOperation}
    (refused : directory.refusable operation = .error rejection) :
    rejection.directory = directory := by
  have updates : ∀ (operation : RecordOperation) (transition : RecordTransition PUnit),
      (∀ record, record.refusable operation = transition.run record) →
        ∀ record refusal, transition.run record = .error refusal → refusal.identity = record :=
    fun operation transition same record refusal failed =>
      IdentityRecord.refusable_gives_back ((same record).trans failed)
  have opens : ∀ request generated entropy record refusal,
      (RecordTransition.openOrGenerateVaultDek request generated entropy).openKeys record =
        .error refusal → refusal.identity = record := by
    intro request generated entropy record refusal failed
    rw [RecordTransition.openKeys_openOrGenerateVaultDek] at failed
    exact IdentityRecord.existing_gives_back failed
  cases operation with
  | createIdentity request generated =>
    exact rejecting_eq_error (map_eq_error
      ((DirectoryTransition.run_createIdentity directory request generated).symm.trans refused))
  | select identityId =>
    exact rejecting_eq_error
      ((DirectoryTransition.run_select directory identityId).symm.trans refused)
  | importLegacyVault request generated entropy =>
    simp only [refusable] at refused
    split at refused
    · cases refused
      rfl
    · exact importInto_gives_back
        (updates (.reconcileLegacyVaultMember _ entropy) _ fun _ => rfl) refused
    · exact importInto_gives_back (updates (.importLegacyVault _ entropy) _ fun _ => rfl) refused
    · rw [DirectoryTransition.run_importNewLegacyIdentity] at refused
      exact rejecting_eq_error (map_eq_error refused)
  | reconcileVaultDek request entropy =>
    simp only [refusable] at refused
    split at refused
    · cases refused
      rfl
    · exact updateIdentity_eq_error
        (updates (.reconcileLegacyVaultMember request entropy) _ fun _ => rfl) refused
  | openOrGenerateVaultDek request generated entropy =>
    simp only [refusable] at refused
    split at refused
    · cases refused
      rfl
    · exact openIdentity_eq_error (opens request generated entropy) refused
  | openOrGenerateVaultDekForIdentity request generated entropy =>
    simp only [refusable] at refused
    split at refused
    · cases refused
      rfl
    · exact openIdentity_eq_error (opens request.vault generated entropy) refused
  | setMemberSigningPublicKey request =>
    exact updateIdentity_eq_error
      (updates (.setMemberSigningPublicKey request.member) _ fun _ => rfl) refused
  | addSelectedMember member =>
    simp only [refusable] at refused
    split at refused
    · cases refused
      rfl
    · exact updateIdentity_eq_error (updates (.addMember member) _ fun _ => rfl) refused
  | replaceSelected record =>
    exact rejecting_eq_error
      ((DirectoryTransition.run_replaceSelected directory record).symm.trans refused)
  | applyReplicatedMembership request => exact rejecting_eq_error refused
  | adoptReplicatedIdentity request => exact rejecting_eq_error refused
  | addReplicatedIdentity request generated => exact rejecting_eq_error refused
  | retireLocalIdentityKey request =>
    simp only [refusable] at refused
    split at refused
    · cases refused
      rfl
    · split at refused
      · cases refused
      · rcases bind_eq_error.mp refused with first | ⟨remaining, _, later⟩
        · exact updateIdentity_eq_error (updates (.removeMember request.appId) _ fun _ => rfl) first
        · cases later

end IdentityDirectory

/-- Whatever operation on a record, a directory or a keyring is refused, the value its
rejection carries is the one it was called on. -/
theorem refused_gives_back [Age] {Wrapped : Type} :
    (∀ (record : IdentityRecord) operation rejection,
      record.refusable operation = .error rejection → rejection.identity = record) ∧
    (∀ (directory : IdentityDirectory) operation rejection,
      directory.refusable operation = .error rejection → rejection.directory = directory) ∧
    (∀ (keyring : LocalIdentityKeyring Wrapped) operation rejection,
      keyring.refusable operation = .error rejection → rejection.keyring = keyring) ∧
    ∀ (entry : LocalIdentityKeyringEntry Wrapped) request rejection,
      entry.refusable request = .error rejection → rejection.entry = entry :=
  ⟨fun _ _ _ => IdentityRecord.refusable_gives_back,
    fun _ _ _ => IdentityDirectory.refusable_gives_back,
    fun _ _ _ => LocalIdentityKeyring.refusable_eq_error,
    fun _ _ _ => LocalIdentityKeyringEntry.refusable_eq_error⟩

end Nook.Auth
