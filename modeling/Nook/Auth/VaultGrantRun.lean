import Nook.Auth.VaultGrants

set_option autoImplicit false

namespace Nook.Auth

open Nook.Lib Nook.EventLog

variable [Age]

/-! ### Runs of one record -/

inductive RecordAction where
  | generateVaultDek (storeId : StoreId) (generated : MultiDeviceResult VaultKeys)
      (entropy : Entropy)
  | grantMemberToVaults (request : IdentityMemberVaultGrant) (entropy : Nat → Entropy)
  | addMember (member : IdentityMember)
  | removeMember (appId : AppId)
  | reconcileLegacyVaultMember (request : IdentityLegacyVaultReconciliation) (entropy : Entropy)
  | importLegacyVault (request : IdentityLegacyVaultReconciliation) (entropy : Entropy)
  | applyReplicatedMembership (mirror : MembershipMirror)

namespace IdentityRecord

def perform (record : IdentityRecord) : RecordAction → MultiDeviceResult IdentityRecord
  | .generateVaultDek storeId generated entropy =>
    ((record.generateVaultDek storeId generated entropy).map (·.identity)).mapError (·.cause)
  | .grantMemberToVaults request entropy =>
    (record.grantMemberToVaults request entropy).mapError (·.cause)
  | .addMember member => (record.addMember member).mapError (·.cause)
  | .removeMember appId => (record.removeMember appId).mapError (·.cause)
  | .reconcileLegacyVaultMember request entropy =>
    (record.reconcileLegacyVaultMember request entropy).mapError (·.cause)
  | .importLegacyVault request entropy =>
    (record.importLegacyVault request entropy).mapError (·.cause)
  | .applyReplicatedMembership mirror => record.applyReplicatedMembership mirror

omit [Age] in
/-- An import is of a vault that the record does not hold, and a grant of any vault is to a
current member. -/
def Grounded (record : IdentityRecord) : RecordAction → Prop
  | .grantMemberToVaults request _ =>
    request.keysByStore = [] ∨ record.hasAppId request.member.appId = true
  | .importLegacyVault request _ => record.ownsVault request.storeId = false
  | _ => True

omit [Age] in
/-- No envelope of any vault is addressed to an app. -/
def Unaddressed (record : IdentityRecord) (appId : AppId) : Prop :=
  ∀ vault ∈ record.vaultDeks,
    appId ∉ recipients vault.secretsEnvelopes ∧ appId ∉ recipients vault.membersEnvelopes

/-- The records that grounded steps reach from a new or a synthesized one. -/
inductive Reached : IdentityRecord → Prop
  | created {label : Str} {appKey : AppKey} {memberLabel : MemberLabelState}
      {generated : MultiDeviceResult IdentityId} {record : IdentityRecord}
      (made : createWithAppKey label appKey memberLabel generated = .ok record) : Reached record
  | synthesized {label : Str} {member : IdentityMember} {storeId : StoreId}
      {secretsEnvelope membersEnvelope : AgeArmoredCiphertext} {keyEpoch : IdentityVaultDekEpoch}
      {generated : MultiDeviceResult IdentityId} {record : IdentityRecord}
      (made : synthesizeFromLegacyVault label member storeId secretsEnvelope membersEnvelope keyEpoch
        generated = .ok record) : Reached record
  | stepped {record next : IdentityRecord} {action : RecordAction} (before : Reached record)
      (grounded : record.Grounded action) (accepted : record.perform action = .ok next) :
      Reached next

variable {record next : IdentityRecord}

omit [Age] in
theorem GrantsCurrent.unaddressed (current : record.GrantsCurrent) {appId : AppId}
    (unlisted : appId ∉ record.memberIds) : record.Unaddressed appId := by
  intro vault held
  have granted := current.vaults vault held
  have absent : appId ∉ recipients vault.secretsEnvelopes :=
    fun named => unlisted (granted.current appId named)
  exact ⟨absent, fun named => absent ((granted.same appId).mpr named)⟩

/-- An accepted step keeps the grants current exactly when it is grounded. -/
theorem GrantsCurrent.perform_iff (current : record.GrantsCurrent) {action : RecordAction}
    (accepted : record.perform action = .ok next) :
    next.GrantsCurrent ↔ record.Grounded action := by
  cases action with
  | generateVaultDek storeId generated entropy =>
    obtain made := mapError_eq_ok.mp accepted
    cases done : record.generateVaultDek storeId generated entropy with
    | error => simp [done, Except.map] at made
    | ok opened =>
      simp only [done, Except.map, Except.ok.injEq] at made
      exact iff_of_true (made ▸ current.generateVaultDek done) trivial
  | grantMemberToVaults request entropy =>
    rw [current.grantMemberToVaults_iff (mapError_eq_ok.mp accepted), Grounded, hasAppId_eq_true]
  | addMember member => exact iff_of_true (current.addMember (mapError_eq_ok.mp accepted)) trivial
  | removeMember appId =>
    exact iff_of_true (current.removeMember (mapError_eq_ok.mp accepted)).1 trivial
  | reconcileLegacyVaultMember request entropy =>
    exact iff_of_true (current.reconcileLegacyVaultMember (mapError_eq_ok.mp accepted)) trivial
  | importLegacyVault request entropy =>
    exact current.importLegacyVault_iff (mapError_eq_ok.mp accepted)
  | applyReplicatedMembership mirror =>
    exact iff_of_true (current.applyReplicatedMembership accepted).1 trivial

theorem grantsCurrent_createWithAppKey {label : Str} {appKey : AppKey}
    {memberLabel : MemberLabelState} {generated : MultiDeviceResult IdentityId}
    (made : createWithAppKey label appKey memberLabel generated = .ok record) :
    record.GrantsCurrent := by
  obtain ⟨identityId, _, made⟩ := bind_eq_ok.mp made
  cases made
  exact ⟨List.nodup_singleton _, List.nodup_nil, fun vault held => absurd held List.not_mem_nil⟩

omit [Age] in
theorem grantsCurrent_synthesizeFromLegacyVault {label : Str} {member : IdentityMember}
    {storeId : StoreId} {secretsEnvelope membersEnvelope : AgeArmoredCiphertext}
    {keyEpoch : IdentityVaultDekEpoch} {generated : MultiDeviceResult IdentityId}
    (made : synthesizeFromLegacyVault label member storeId secretsEnvelope membersEnvelope keyEpoch
      generated = .ok record) : record.GrantsCurrent := by
  obtain ⟨identityId, _, made⟩ := bind_eq_ok.mp made
  cases made
  refine ⟨List.nodup_singleton _, List.nodup_singleton _, fun vault held => ?_⟩
  rw [List.mem_singleton.mp held]
  exact IdentityVaultDek.grantedTo_of_eq (List.nodup_singleton member.appId) rfl rfl
    (List.Subset.refl _)

theorem Reached.grantsCurrent (reached : Reached record) : record.GrantsCurrent := by
  induction reached with
  | created made => exact grantsCurrent_createWithAppKey made
  | synthesized made => exact grantsCurrent_synthesizeFromLegacyVault made
  | stepped before grounded accepted current => exact (current.perform_iff accepted).mpr grounded

/-- In every record that grounded steps reach, the vaults are distinct and the envelopes of each
name the same current members, each once; a removed or revoked app is named by none. -/
theorem vault_grants_current (reached : Reached record) :
    record.GrantsCurrent ∧
      (∀ appId next, record.removeMember appId = .ok next → next.Unaddressed appId) ∧
      (∀ mirror next, record.applyReplicatedMembership mirror = .ok next →
        ∀ appId ∈ mirror.request.revoked, next.Unaddressed appId) := by
  have current := reached.grantsCurrent
  refine ⟨current, fun appId next accepted => ?_, fun mirror next accepted appId revoked => ?_⟩
  · obtain ⟨kept, unlisted⟩ := current.removeMember accepted
    exact kept.unaddressed unlisted
  · obtain ⟨kept, unlisted⟩ := current.applyReplicatedMembership accepted
    exact kept.unaddressed (unlisted appId revoked)

end IdentityRecord

end Nook.Auth

namespace Nook.Auth.TestSupport

open Nook.Lib Nook.EventLog

/-- A sealed text is the recipient's key and the text. -/
scoped instance clearAge : Age where
  toPublic identity := ⟨"age1".toList ++ identity⟩
  appId key := ⟨key.asStr⟩
  authId key := ⟨key.asStr⟩
  sealBytes key plaintext _ := .ok ⟨key.asStr ++ ' ' :: plaintext⟩
  openIdentityBytes envelope identity :=
    match stripPrefix envelope.asStr ("age1".toList ++ identity ++ [' ']) with
    | some plaintext => .ok plaintext
    | none => .error (.ageCrypto "no matching key")

def laptop : AppKey := ⟨"laptop".toList⟩

def phone : AppKey := ⟨"phone".toList⟩

def storeId : StoreId := ⟨"store_abcdefghijk".toList⟩

def identityId : IdentityId := ⟨"idn_abcdefghijk".toList⟩

def sealedKey (app : AppKey) : AgeArmoredCiphertext :=
  ⟨app.publicKey.asStr ++ ' ' :: List.replicate 64 'a'⟩

/-- The observation of a vault whose keys are sealed to an app. -/
def observed (app : AppKey) : IdentityVaultDekReconciliation :=
  ⟨sealedKey app, sealedKey app, .observe .legacyUnknown [], [app.authId]⟩

def importStore : RecordAction :=
  .importLegacyVault ⟨laptop, storeId, observed laptop⟩ fun _ => []

/-- A new identity that imports a vault. -/
def imported : MultiDeviceResult IdentityRecord := do
  let record ← IdentityRecord.createWithAppKey "Personal".toList laptop .unnamed (.ok identityId)
  record.perform importStore

theorem vault_grants_current_imported : ∃ record, imported = .ok record ∧
    record.vaultDeks ≠ [] ∧ record.GrantsCurrent ∧
      (∀ appId next, record.removeMember appId = .ok next → next.Unaddressed appId) ∧
      (∀ mirror next, record.applyReplicatedMembership mirror = .ok next →
        ∀ appId ∈ mirror.request.revoked, next.Unaddressed appId) := by
  obtain ⟨record, done, holds⟩ := exists_of_passes imported
    (fun record => !record.vaultDeks.isEmpty) (by decide)
  obtain ⟨created, made, accepted⟩ := bind_eq_ok.mp done
  have grounded : created.Grounded importStore := by
    cases made
    rfl
  refine ⟨record, done, ?_, IdentityRecord.vault_grants_current
    ((IdentityRecord.Reached.created made).stepped grounded accepted)⟩
  intro none
  simp [none] at holds

/-- Importing a vault twice gives the record the vault twice. -/
theorem imported_twice : ∃ record, (imported >>= fun record => record.perform importStore) =
    .ok record ∧ ¬ record.storeIds.Nodup := by
  obtain ⟨record, done, twice⟩ := exists_of_passes
    (imported >>= fun record => record.perform importStore)
    (fun record => !decide record.storeIds.Nodup) (by decide)
  exact ⟨record, done, by simpa using twice⟩

end Nook.Auth.TestSupport
