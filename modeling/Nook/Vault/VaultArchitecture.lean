import Nook.Auth.VaultMetaRows

set_option autoImplicit false

namespace Nook.Vault

open Nook.Lib Nook.EventLog Nook.Auth

/-! ### Modes -/

inductive DeviceMode where
  /-- A passkey derives the local device identity. -/
  | standard
  /-- A passkey unwraps a random device identity stored locally. -/
  | antiHacker
  deriving DecidableEq

inductive VaultType where
  /-- Each device has a full envelope of the vault keys. -/
  | simple
  /-- Access takes a threshold of shares. -/
  | sentinel
  deriving DecidableEq

inductive ReplicationType where
  | personal
  | shared
  deriving DecidableEq

structure SentinelPolicy where
  threshold : UInt8
  requiredParticipants : UInt8
  readyParticipants : UInt8
  deriving DecidableEq

inductive SentinelConfiguration where
  | disabled
  | enabled (policy : SentinelPolicy)
  deriving DecidableEq

/-- Grouped vault architecture modes. -/
structure VaultArchitecture where
  deviceMode : DeviceMode
  vaultType : VaultType
  replicationType : ReplicationType
  sentinel : SentinelConfiguration
  deriving DecidableEq

inductive ArchitectureError where
  | invalidSentinelPolicy
  | simpleVaultHasSentinelPolicy
  | invalidSentinelShareSet
  | simpleVaultHasSentinelShares
  | sentinelVaultHasFullKeyEnvelopes
  deriving DecidableEq

def SentinelConfiguration.policy : SentinelConfiguration → Except ArchitectureError SentinelPolicy
  | enabled policy => .ok policy
  | disabled => .error .invalidSentinelPolicy

namespace SentinelPolicy

def minQuorum : UInt8 := 2
def maxQuorum : UInt8 := 16

def validate (policy : SentinelPolicy) : Except ArchitectureError Unit :=
  if ¬ (minQuorum ≤ policy.threshold ∧ policy.threshold ≤ policy.requiredParticipants) ∨
      ¬ (minQuorum ≤ policy.requiredParticipants ∧ policy.requiredParticipants ≤ maxQuorum) ∨
      ¬ policy.readyParticipants ≤ policy.requiredParticipants then
    .error .invalidSentinelPolicy
  else .ok ()

end SentinelPolicy

namespace VaultArchitecture

def default : VaultArchitecture := ⟨.standard, .simple, .personal, .disabled⟩

def validate (architecture : VaultArchitecture) : Except ArchitectureError Unit :=
  match architecture.vaultType with
  | .simple =>
    if architecture.sentinel ≠ .disabled then .error .simpleVaultHasSentinelPolicy else .ok ()
  | .sentinel => do
    let policy ← architecture.sentinel.policy
    policy.validate

/-! ### Records -/

/-- What the records seen so far hold. -/
structure RecordScan where
  shareDevices : Finset DeviceId
  shareIndexes : Finset UInt8
  shares : List SentinelShareEnvelope
  hasAuth : Bool

section

variable [AgeRecipients] [JsonText]

def scanRecord (scan : RecordScan) (record : StoredSecretRecord) :
    Except ArchitectureError RecordScan :=
  match classify record with
  | .error _ => .error .invalidSentinelShareSet
  | .ok (.auth ..) => .ok { scan with hasAuth := true }
  | .ok (.sentinelShare deviceId share) =>
    if deviceId ∈ scan.shareDevices ∨ share.shareIndex ∈ scan.shareIndexes then
      .error .invalidSentinelShareSet
    else .ok { scan with shareDevices := insert deviceId scan.shareDevices,
                         shareIndexes := insert share.shareIndex scan.shareIndexes,
                         shares := scan.shares ++ [share] }
  | .ok _ => .ok scan

/-- Whether the shares form the complete set the policy asks for. -/
def checkShares (policy : SentinelPolicy) (shares : List SentinelShareEnvelope) :
    Except ArchitectureError Unit :=
  if shares.isEmpty then
    if policy.readyParticipants = 0 then .ok () else .error .invalidSentinelShareSet
  else if policy.requiredParticipants.toNat ≠ shares.length ∨
      policy.readyParticipants ≠ policy.requiredParticipants ∨
      (shares.any fun share => share.threshold ≠ policy.threshold ∨
        share.requiredParticipants ≠ policy.requiredParticipants ∨
        ¬ (share.shareIndex ≠ 0 ∧ share.shareIndex ≤ policy.requiredParticipants)) = true then
    .error .invalidSentinelShareSet
  else .ok ()

/-- Validate architecture invariants that depend on persisted vault records. -/
def validateRecords (architecture : VaultArchitecture) (records : List StoredSecretRecord) :
    Except ArchitectureError Unit := do
  architecture.validate
  let scan ← records.foldlM scanRecord ⟨∅, ∅, [], false⟩
  match architecture.vaultType with
  | .simple => if scan.shares.isEmpty then .ok () else .error .simpleVaultHasSentinelShares
  | .sentinel =>
    if scan.hasAuth then .error .sentinelVaultHasFullKeyEnvelopes
    else do checkShares (← architecture.sentinel.policy) scan.shares

end

end VaultArchitecture

end Nook.Vault
