import Nook.Auth.IdentityLegacy

set_option autoImplicit false

namespace Nook.Auth

open Nook.Lib Nook.EventLog

/-- A transition of a record in place. -/
abbrev RecordTransition (α : Type) := EStateM MultiDeviceError IdentityRecord α

/-! ### The transitions, in the order of their changes -/

namespace RecordTransition

variable [Age]

/-- A transition on a consumed record. -/
def run (transition : RecordTransition PUnit) (record : IdentityRecord) :
    Except IdentityRecordRejection IdentityRecord :=
  finish IdentityRecordRejection.mk (fun _ next => next) transition record

def openKeys (transition : RecordTransition VaultKeys) (record : IdentityRecord) :
    Except IdentityRecordRejection IdentityVaultKeys :=
  finish IdentityRecordRejection.mk (fun keys next => ⟨next, keys⟩) transition record

omit [Age] in
def stepControlEpoch : RecordTransition PUnit :=
  modify fun record => { record with controlEpoch := record.controlEpoch.next }

omit [Age] in
/-- `get_mut(index)`, then an assignment. -/
def assignGrant (missing : String) (index : Nat) (grant : IdentityVaultDek) :
    RecordTransition PUnit := do
  let record ← get
  match record.vaultDeks[index]? with
  | none => throw (.invalidDeviceIdentity missing)
  | some _ => modify fun record => { record with vaultDeks := record.vaultDeks.set index grant }

def generateVaultDek (storeId : StoreId) (generated : MultiDeviceResult VaultKeys)
    (entropy : Entropy) : RecordTransition VaultKeys := do
  let record ← get
  liftExcept <| refuse record.members.isEmpty (.invalidDeviceIdentity
    "identity must have at least one app key before creating a vault")
  liftExcept <| refuse (record.vaultDeks.any (·.storeId = storeId)) (.invalidDeviceIdentity
    "identity already holds a DEK for this vault")
  let keys ← liftExcept generated
  let vaultDek ← liftExcept <|
    IdentityVaultDek.wrapVaultKeysForMembers keys record.members storeId entropy
  stepControlEpoch
  modify fun record => { record with vaultDeks := record.vaultDeks ++ [vaultDek] }
  return keys

def openOrGenerateVaultDek (request : IdentityVaultKeyOpening)
    (generated : MultiDeviceResult VaultKeys) (entropy : Entropy) : RecordTransition VaultKeys := do
  let record ← get
  match ← liftExcept (record.existingVaultKeys request) with
  | some keys => return keys
  | none => generateVaultDek request.storeId generated entropy

def grantMemberToVaults (request : IdentityMemberVaultGrant) (entropy : Nat → Entropy) :
    RecordTransition PUnit := do
  let record ← get
  let replacements ← liftExcept <| request.keysByStore.zipIdx.mapM fun ((storeId, keys), turn) =>
    record.grantReplacement request.member storeId keys (entropy turn)
  replacements.forM fun (index, replacement) =>
    assignGrant "identity does not own the vault being granted" index replacement
  if request.keysByStore.isEmpty then return ⟨⟩ else stepControlEpoch

omit [Age] in
def addMember (member : IdentityMember) : RecordTransition PUnit := do
  let record ← get
  liftExcept <| refuse (record.hasAppId member.appId) (.invalidDeviceIdentity
    "app key is already a member of this identity")
  modify fun record => { record with members := record.members ++ [member] }
  stepControlEpoch

omit [Age] in
def setMemberSigningPublicKey (request : IdentityMemberSigningUpdate) :
    RecordTransition PUnit := do
  let record ← get
  match record.members.find? (·.appId = request.appId) with
  | none => throw .identityEnrollmentRequired
  | some member =>
    if member.signingPublicKey = request.signingPublicKey then
      return ⟨⟩
    else
      modify fun record => { record with
        members := updateFirst (·.appId = request.appId)
          (fun member => { member with signingPublicKey := request.signingPublicKey })
          record.members }
      stepControlEpoch

omit [Age] in
def removeMember (appId : AppId) : RecordTransition PUnit := do
  let record ← get
  match record.members.findIdx? (·.appId = appId) with
  | none => throw (.invalidDeviceIdentity "app key is not a member of this identity")
  | some index =>
    liftExcept <| refuse (record.members.length = 1) (.invalidDeviceIdentity
      "identity must keep at least one app key")
    modify fun record => { record with
      vaultDeks := record.vaultDeks.map (·.withoutEnvelopes (· = appId)) }
    modify fun record => { record with members := record.members.eraseIdx index }
    stepControlEpoch

def reconcileLegacyVaultMember (request : IdentityLegacyVaultReconciliation)
    (entropy : Entropy) : RecordTransition PUnit := do
  let record ← get
  let _ ← liftExcept (record.boundMember request.appKey)
  match record.vaultDeks.findIdx? (·.storeId = request.storeId),
    record.vaultDek request.storeId with
  | some index, some vault =>
    let nextEpoch ← liftExcept (vault.nextEpoch request.reconciliation.epochUpdate)
    let keys ← liftExcept (IdentityRecord.reconciledKeys request.appKey request.reconciliation)
    let authorized ← liftExcept <| record.reconciledMembers request.appKey request.reconciliation
      "reconciling app key is not authorized for this vault"
    if vault.reconciliationWith request.appKey authorized keys nextEpoch = .current then
      return ⟨⟩
    else
      let rewrapped ← liftExcept <|
        IdentityVaultDek.wrapVaultKeysForMembers keys authorized request.storeId entropy
      if vault = { rewrapped with keyEpoch := nextEpoch } then
        return ⟨⟩
      else
        assignGrant "identity does not own this legacy vault" index
          { rewrapped with keyEpoch := nextEpoch }
        stepControlEpoch
  | _, _ => throw (.invalidDeviceIdentity "identity does not own this legacy vault")

def importLegacyVault (request : IdentityLegacyVaultReconciliation) (entropy : Entropy) :
    RecordTransition PUnit := do
  let record ← get
  let _ ← liftExcept (record.boundMember request.appKey)
  let keys ← liftExcept (IdentityRecord.reconciledKeys request.appKey request.reconciliation)
  let authorized ← liftExcept <| record.reconciledMembers request.appKey request.reconciliation
    "importing app key is not authorized for this vault"
  let vaultDek ← liftExcept <|
    IdentityVaultDek.wrapVaultKeysForMembers keys authorized request.storeId entropy
  modify fun record => { record with vaultDeks := record.vaultDeks ++ [{ vaultDek with
    keyEpoch := request.reconciliation.epochUpdate.committedEpoch }] }
  stepControlEpoch

/-! ### A refused transition has changed nothing -/

variable (record : IdentityRecord)

omit [Age] in
theorem finish_stepControlEpoch {ρ τ : Type} {reject : IdentityRecord → MultiDeviceError → ρ}
    {result : PUnit → IdentityRecord → τ} : finish reject result stepControlEpoch record =
      .ok (result ⟨⟩ { record with controlEpoch := record.controlEpoch.next }) := rfl

theorem openKeys_generateVaultDek (storeId : StoreId) (generated : MultiDeviceResult VaultKeys)
    (entropy : Entropy) : (generateVaultDek storeId generated entropy).openKeys record =
      record.generateVaultDek storeId generated entropy := by
  unfold generateVaultDek openKeys IdentityRecord.generateVaultDek IdentityRecord.rejecting
  rw [finish_get]
  refine finish_read fun _ filled => finish_read fun _ fresh => finish_read fun keys drawn =>
    finish_read fun vaultDek wrapped => rfl

theorem openKeys_openOrGenerateVaultDek (request : IdentityVaultKeyOpening)
    (generated : MultiDeviceResult VaultKeys) (entropy : Entropy) :
    (openOrGenerateVaultDek request generated entropy).openKeys record =
      record.openOrGenerateVaultDek request generated entropy := by
  unfold openOrGenerateVaultDek openKeys IdentityRecord.openOrGenerateVaultDek
  rw [finish_get]
  cases record.existingVaultKeys request with
  | error cause => rfl
  | ok existing =>
    cases existing with
    | some keys => rfl
    | none => exact openKeys_generateVaultDek record request.storeId generated entropy

omit [Age] in
theorem run_addMember (member : IdentityMember) :
    (addMember member).run record = record.addMember member := by
  unfold addMember run IdentityRecord.addMember IdentityRecord.rejecting
  rw [finish_get]
  exact finish_read fun _ absent => rfl

omit [Age] in
theorem run_setMemberSigningPublicKey (request : IdentityMemberSigningUpdate) :
    (setMemberSigningPublicKey request).run record = record.setMemberSigningPublicKey request := by
  unfold setMemberSigningPublicKey run IdentityRecord.setMemberSigningPublicKey
    IdentityRecord.rejecting
  rw [finish_get]
  cases record.members.find? (·.appId = request.appId) with
  | none => rfl
  | some member =>
    by_cases same : member.signingPublicKey = request.signingPublicKey
    · simp only [if_pos same]
      rfl
    · simp only [if_neg same]
      rfl

omit [Age] in
theorem run_removeMember (appId : AppId) :
    (removeMember appId).run record = record.removeMember appId := by
  unfold removeMember run IdentityRecord.removeMember IdentityRecord.rejecting
  rw [finish_get]
  cases record.members.findIdx? (·.appId = appId) with
  | none => rfl
  | some index => exact finish_read fun _ several => rfl

theorem run_importLegacyVault (request : IdentityLegacyVaultReconciliation) (entropy : Entropy) :
    (importLegacyVault request entropy).run record = record.importLegacyVault request entropy := by
  unfold importLegacyVault run IdentityRecord.importLegacyVault IdentityRecord.rejecting
  rw [finish_get]
  exact finish_read fun _ bound => finish_read fun keys opened => finish_read fun _ listed =>
    finish_read fun _ wrapped => rfl

omit [Age] in
theorem assignGrant_eq (missing : String) {index : Nat} (grant : IdentityVaultDek)
    {record : IdentityRecord} (inside : index < record.vaultDeks.length) :
    assignGrant missing index grant record =
      .ok ⟨⟩ { record with vaultDeks := record.vaultDeks.set index grant } := by
  have found : record.vaultDeks[index]? = some record.vaultDeks[index] :=
    List.getElem?_eq_getElem inside
  unfold assignGrant
  show EStateM.bind EStateM.get _ record = _
  unfold EStateM.bind EStateM.get
  simp only [found]
  rfl

theorem run_reconcileLegacyVaultMember (request : IdentityLegacyVaultReconciliation)
    (entropy : Entropy) : (reconcileLegacyVaultMember request entropy).run record =
      record.reconcileLegacyVaultMember request entropy := by
  unfold reconcileLegacyVaultMember run IdentityRecord.reconcileLegacyVaultMember
    IdentityRecord.rejecting
  rw [finish_get]
  refine finish_read fun _ bound => ?_
  cases placed : record.vaultDeks.findIdx? (·.storeId = request.storeId) with
  | none => rfl
  | some index =>
    cases record.vaultDek request.storeId with
    | none => rfl
    | some vault =>
      refine finish_read fun nextEpoch _ => finish_read fun keys _ =>
        finish_read fun authorized _ => ?_
      by_cases current : vault.reconciliationWith request.appKey authorized keys nextEpoch = .current
      · simp only [if_pos current]
        rfl
      · simp only [if_neg current]
        refine finish_read fun rewrapped _ => ?_
        unfold IdentityRecord.storeGrant
        by_cases same : vault = { rewrapped with keyEpoch := nextEpoch }
        · rw [if_pos same, if_pos same]
          rfl
        · obtain ⟨before, other, after, split, place, _⟩ := mem_of_findIdx? placed
          have inside : index < record.vaultDeks.length := by
            rw [split, ← place]
            simp
          rw [if_neg same, if_neg same, finish_bind, assignGrant_eq _ _ inside]
          rfl

omit [Age] in
theorem foldl_assign (replacements : List (Nat × IdentityVaultDek)) :
    replacements.foldl (fun (state : IdentityRecord) entry =>
      { state with vaultDeks := state.vaultDeks.set entry.1 entry.2 }) record =
    { record with vaultDeks := replacements.foldl (fun vaults entry =>
        vaults.set entry.1 entry.2) record.vaultDeks } := by
  induction replacements generalizing record with
  | nil => rfl
  | cons head tail ih => rw [List.foldl_cons, ih, List.foldl_cons]

theorem grantReplacement_inside {member : IdentityMember} {storeId : StoreId} {keys : VaultKeys}
    {entropy : Entropy} {index : Nat} {replacement : IdentityVaultDek}
    (made : record.grantReplacement member storeId keys entropy = .ok (index, replacement)) :
    index < record.vaultDeks.length := by
  unfold IdentityRecord.grantReplacement at made
  split at made
  · rename_i own grant placed _
    obtain ⟨_, _, made⟩ := bind_eq_ok.mp made
    obtain ⟨_, _, made⟩ := bind_eq_ok.mp made
    obtain ⟨_, _, made⟩ := bind_eq_ok.mp made
    cases made
    obtain ⟨before, other, after, split, place, _⟩ := mem_of_findIdx? placed
    rw [split, ← place]
    simp
  · cases made

/-- The loop that stores the replacements is not left halfway: their places were found. -/
theorem run_grantMemberToVaults (request : IdentityMemberVaultGrant) (entropy : Nat → Entropy) :
    (grantMemberToVaults request entropy).run record =
      record.grantMemberToVaults request entropy := by
  unfold grantMemberToVaults run IdentityRecord.grantMemberToVaults IdentityRecord.rejecting
  rw [finish_get]
  refine finish_read fun replacements collected => ?_
  have placed : ∀ entry ∈ replacements, entry.1 < record.vaultDeks.length := by
    intro entry listed
    obtain ⟨_, _, made⟩ := (mem_of_mapM_eq_ok collected).mp listed
    exact grantReplacement_inside record made
  rw [finish_forM (fun state => state.vaultDeks.length = record.vaultDeks.length)
    (fun state entry => { state with vaultDeks := state.vaultDeks.set entry.1 entry.2 })
    rfl ?_, foldl_assign]
  · by_cases nothing : request.keysByStore.isEmpty = true
    · simp only [if_pos nothing]
      rfl
    · simp only [if_neg nothing]
      rfl
  · intro entry listed state same
    exact ⟨assignGrant_eq _ _ (same ▸ placed entry listed), by simpa using same⟩

end RecordTransition

end Nook.Auth
