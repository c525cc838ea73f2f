import Nook.Auth.IdentityRecord

set_option autoImplicit false

namespace Nook.Auth

open Nook.Lib Nook.EventLog

inductive IdentityVaultDekEpochUpdate where
  | observe (keyEpoch : IdentityVaultDekEpoch) (checkpointAncestors : List IdentityVaultEventId)
  | rotate (previousKeyEpoch : IdentityVaultEventId)
      (previousCheckpointAncestors : List IdentityVaultEventId)
      (keyEpoch checkpoint : IdentityVaultEventId)

def IdentityVaultDekEpochUpdate.committedEpoch :
    IdentityVaultDekEpochUpdate → IdentityVaultDekEpoch
  | observe keyEpoch _ => keyEpoch
  | rotate _ _ keyEpoch checkpoint => .known keyEpoch checkpoint

structure IdentityVaultDekReconciliation where
  secretsEnvelope : AgeArmoredCiphertext
  membersEnvelope : AgeArmoredCiphertext
  epochUpdate : IdentityVaultDekEpochUpdate
  authorizedAuthIds : List AuthKeyId

/-- The request of a reconciliation and of an import of a legacy vault. -/
structure IdentityLegacyVaultReconciliation where
  appKey : AppKey
  storeId : StoreId
  reconciliation : IdentityVaultDekReconciliation

inductive IdentityVaultGrantReconciliation where
  | current
  | rewrapRequired
  deriving DecidableEq

namespace IdentityVaultDekEpoch

def label : IdentityVaultDekEpoch → Str
  | legacyUnknown => "legacy-unknown".toList
  | known keyEpoch checkpoint => keyEpoch.asStr ++ '@' :: checkpoint.asStr

/-- The epoch that an update is expected to follow, as an error names it. -/
def expectedBy : IdentityVaultDekEpochUpdate → Str
  | .observe keyEpoch _ => keyEpoch.label
  | .rotate previousKeyEpoch _ _ _ => previousKeyEpoch.asStr

/-- The epoch of a grant after an update that continues it. -/
def next (current : IdentityVaultDekEpoch) (update : IdentityVaultDekEpochUpdate) :
    MultiDeviceResult IdentityVaultDekEpoch :=
  let stale : MultiDeviceResult IdentityVaultDekEpoch :=
    .error (.staleVaultDekEpoch (expectedBy update) current.label)
  match current, update with
  | legacyUnknown, .observe keyEpoch _ => .ok keyEpoch
  | known currentEpoch currentCheckpoint, .observe (known keyEpoch checkpoint) ancestors =>
    if currentEpoch = keyEpoch ∧
        (currentCheckpoint = checkpoint ∨ currentCheckpoint ∈ ancestors) then
      .ok (known keyEpoch checkpoint)
    else
      stale
  | legacyUnknown, .rotate _ _ keyEpoch checkpoint => .ok (known keyEpoch checkpoint)
  | known currentEpoch currentCheckpoint, .rotate previousKeyEpoch ancestors keyEpoch checkpoint =>
    if (currentEpoch = previousKeyEpoch ∨ currentEpoch ∈ ancestors) ∧
          currentCheckpoint ∈ ancestors ∨
        currentEpoch = keyEpoch ∧
          (currentCheckpoint = checkpoint ∨ currentCheckpoint ∈ ancestors) then
      .ok (known keyEpoch checkpoint)
    else
      stale
  | known .., .observe legacyUnknown _ => stale

end IdentityVaultDekEpoch

namespace IdentityVaultDek

variable [Age]

def nextEpoch (grant : IdentityVaultDek) (update : IdentityVaultDekEpochUpdate) :
    MultiDeviceResult IdentityVaultDekEpoch :=
  grant.keyEpoch.next update

/-- Whether every member has one envelope of the list. -/
def coversMembers (members : List IdentityMember) (envelopes : List MemberDekEnvelope) : Bool :=
  members.all fun member => (envelopes.filter (·.appId = member.appId)).length = 1

def opensTo (appKey : AppKey) (entry : MemberDekEnvelope) (key : SymmetricKey) : Bool :=
  match appKey.decryptEnvelope entry.envelope with
  | .ok opened => opened = key
  | .error _ => false

/-- Whether a grant already is the one that a reconciliation would wrap. -/
def reconciliationWith (grant : IdentityVaultDek) (appKey : AppKey) (members : List IdentityMember)
    (keys : VaultKeys) (keyEpoch : IdentityVaultDekEpoch) : IdentityVaultGrantReconciliation :=
  if grant.keyEpoch ≠ keyEpoch ∨ grant.secretsEnvelopes.length ≠ members.length ∨
      grant.membersEnvelopes.length ≠ members.length then
    .rewrapRequired
  else if !coversMembers members grant.secretsEnvelopes ||
      !coversMembers members grant.membersEnvelopes then
    .rewrapRequired
  else
    match grant.appEnvelopes appKey.appId with
    | none => .rewrapRequired
    | some (secrets, entry) =>
      if opensTo appKey secrets keys.secretsKey && opensTo appKey entry keys.membersKey then
        .current
      else
        .rewrapRequired

end IdentityVaultDek

namespace IdentityRecord

variable [Age]

/-- The keys that a reconciliation hands over to its app key. -/
def reconciledKeys (appKey : AppKey) (reconciliation : IdentityVaultDekReconciliation) :
    MultiDeviceResult VaultKeys := do
  return {
    secretsKey := ← appKey.decryptEnvelope reconciliation.secretsEnvelope
    membersKey := ← appKey.decryptEnvelope reconciliation.membersEnvelope }

/-- The members a reconciliation authorizes; its own app key has to be one of them. -/
def reconciledMembers (record : IdentityRecord) (appKey : AppKey)
    (reconciliation : IdentityVaultDekReconciliation) (unauthorized : String) :
    MultiDeviceResult (List IdentityMember) := do
  let authorized := record.members.filter (·.authId ∈ reconciliation.authorizedAuthIds)
  refuse (!authorized.any (·.appId = appKey.appId)) (.invalidDeviceIdentity unauthorized)
  return authorized

/-- Replace the grant at a place, when it differs. -/
def storeGrant (record : IdentityRecord) (index : Nat) (stored rewrapped : IdentityVaultDek) :
    IdentityRecord :=
  if stored = rewrapped then
    record
  else
    { record with
      vaultDeks := record.vaultDeks.set index rewrapped
      controlEpoch := record.controlEpoch.next }

def reconcileLegacyVaultMember (record : IdentityRecord)
    (request : IdentityLegacyVaultReconciliation) (entropy : Entropy) :
    Except IdentityRecordRejection IdentityRecord :=
  record.rejecting do
    let _ ← record.boundMember request.appKey
    match record.vaultDeks.findIdx? (·.storeId = request.storeId),
      record.vaultDek request.storeId with
    | some index, some vault =>
      let nextEpoch ← vault.nextEpoch request.reconciliation.epochUpdate
      let keys ← reconciledKeys request.appKey request.reconciliation
      let authorized ← record.reconciledMembers request.appKey request.reconciliation
        "reconciling app key is not authorized for this vault"
      if vault.reconciliationWith request.appKey authorized keys nextEpoch = .current then
        return record
      let rewrapped ← IdentityVaultDek.wrapVaultKeysForMembers keys authorized request.storeId
        entropy
      return record.storeGrant index vault { rewrapped with keyEpoch := nextEpoch }
    | _, _ => .error (.invalidDeviceIdentity "identity does not own this legacy vault")

def importLegacyVault (record : IdentityRecord) (request : IdentityLegacyVaultReconciliation)
    (entropy : Entropy) : Except IdentityRecordRejection IdentityRecord :=
  record.rejecting do
    let _ ← record.boundMember request.appKey
    let keys ← reconciledKeys request.appKey request.reconciliation
    let authorized ← record.reconciledMembers request.appKey request.reconciliation
      "importing app key is not authorized for this vault"
    let vaultDek ← IdentityVaultDek.wrapVaultKeysForMembers keys authorized request.storeId entropy
    return { record with
      vaultDeks := record.vaultDeks ++ [{ vaultDek with
        keyEpoch := request.reconciliation.epochUpdate.committedEpoch }]
      controlEpoch := record.controlEpoch.next }

omit [Age] in
/-- Synthesize an identity from a legacy vault member and its auth envelopes. -/
def synthesizeFromLegacyVault (label : Str) (member : IdentityMember) (storeId : StoreId)
    (secretsEnvelope membersEnvelope : AgeArmoredCiphertext) (keyEpoch : IdentityVaultDekEpoch)
    (generated : MultiDeviceResult IdentityId) : MultiDeviceResult IdentityRecord := do
  return ⟨← generated, label, .initial, [member],
    [⟨storeId, keyEpoch, [⟨member.appId, secretsEnvelope⟩], [⟨member.appId, membersEnvelope⟩]⟩]⟩

end IdentityRecord

end Nook.Auth
