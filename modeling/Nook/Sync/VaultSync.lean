import Nook.EventLog.Canonical
import Nook.Lib.Except

set_option autoImplicit false

namespace Nook.Sync

open Nook.Lib Nook.EventLog

/-! ### Stored vault documents -/

inductive VaultStoreIdentity where
  | unassigned
  | assigned (storeId : Str)
  deriving DecidableEq

/-- The top-level fields of a stored vault that a revision is read from. -/
structure StoredVaultYaml where
  schemaVersion : UInt32
  vaultVersion : UInt64
  storeId : VaultStoreIdentity

inductive VaultFormatError where
  | unrecognizedFormat (firstLine : Str)
  | yamlParseVersion
  | yamlParseStoreId
  | unsupportedSchemaVersion (found maxSupported : UInt32)
  | validation (cause : ValidationError)
  deriving DecidableEq

inductive VaultSyncError where
  | storeIdMismatch (localStore remoteStore : Str)
  | missingStoreId
  | vaultFormat (cause : VaultFormatError)
  deriving DecidableEq

/-- The third-party operations under vault synchronisation: YAML decoding, and
the hexadecimal SHA-256 of a text's UTF-8 bytes. -/
class VaultText where
  parseYaml : Str → Option StoredVaultYaml
  sha256Hex : Str → Str

section

variable [VaultText]

namespace VaultSchemaVersion

def current : UInt32 := 1

def ensureSupported (version : UInt32) : Except VaultFormatError Unit :=
  if version ≠ current then .error (.unsupportedSchemaVersion version current) else .ok ()

end VaultSchemaVersion

namespace VaultFormatDocument

/-- The starts of the first line of a YAML vault. -/
def yamlStarts : List Str :=
  ["-", "[", "%YAML", "name:", "secrets:", "store_id:", "schema_version:", "vault_version:",
    "architecture:", "auth:", "joins:", "members:", "sentinel_shares:"].map String.toList

/-- Detect the persisted representation without accepting arbitrary JSON. -/
def detect (stored : Str) : Except VaultFormatError Unit :=
  let trimmed := trim stored
  if trimmed.isEmpty then .ok ()
  else
    let firstLine := (((trimmed.splitOn '\n').map trim).find? fun line => !line.isEmpty).getD []
    if yamlStarts.any (startsWith firstLine) then .ok ()
    else .error (.unrecognizedFormat firstLine)

/-- Read the monotonic revision counter from on-disk YAML. -/
def version (stored : Str) : Except VaultFormatError UInt64 :=
  let trimmed := trim stored
  if trimmed.isEmpty then .ok 0
  else do
    detect stored
    match VaultText.parseYaml trimmed with
    | none => .error .yamlParseVersion
    | some vault => do
      VaultSchemaVersion.ensureSupported vault.schemaVersion
      return vault.vaultVersion

/-- Read the logical secret-store id from on-disk YAML. -/
def storeId (stored : Str) : Except VaultFormatError VaultStoreIdentity :=
  let trimmed := trim stored
  if trimmed.isEmpty then .ok .unassigned
  else do
    detect stored
    match VaultText.parseYaml trimmed with
    | none => .error .yamlParseStoreId
    | some vault => do
      VaultSchemaVersion.ensureSupported vault.schemaVersion
      match vault.storeId with
      | .assigned id =>
        match StoreId.parse id with
        | .ok storeId => .ok (.assigned storeId.asStr)
        | .error cause => .error (.validation cause)
      | .unassigned => .ok .unassigned

end VaultFormatDocument

/-! ### Revisions -/

inductive VaultRevisionStore where
  | emptyVault
  | identified (storeId : Str)
  deriving DecidableEq

/-- Parsed revision metadata from an on-disk vault blob. -/
structure VaultRevision where
  version : UInt64
  contentHash : Str
  store : VaultRevisionStore

namespace VaultRevision

/-- Hash trimmed vault content for provider checkpoints and conflict decisions. -/
def hashOf (content : Str) : Str := VaultText.sha256Hex (trim content)

/-- Read revision metadata without decrypting secret values. -/
def fromStored (stored : Str) : Except VaultSyncError VaultRevision :=
  let trimmed := trim stored
  if trimmed.isEmpty then .ok ⟨0, hashOf trimmed, .emptyVault⟩
  else do
    match ← (VaultFormatDocument.storeId trimmed).mapError .vaultFormat with
    | .assigned storeId =>
      let version ← (VaultFormatDocument.version trimmed).mapError .vaultFormat
      return ⟨version, hashOf trimmed, .identified storeId⟩
    | .unassigned => .error .missingStoreId

theorem contentHash_fromStored {stored : Str} {revision : VaultRevision}
    (read : fromStored (trim stored) = .ok revision) : revision.contentHash = hashOf stored := by
  have hashed : hashOf (trim (trim stored)) = hashOf stored := by
    simp only [hashOf, trim_trim]
  unfold fromStored at read
  simp only at read
  split at read
  · cases read
    exact hashed
  · obtain ⟨identity, _, read⟩ := bind_eq_ok.mp read
    cases identity with
    | unassigned => cases read
    | assigned storeId =>
      obtain ⟨version, _, read⟩ := bind_eq_ok.mp read
      cases read
      exact hashed

end VaultRevision

/-! ### One synchronisation decision -/

/-- Outcome of comparing a local vault blob against a remote one. -/
inductive VaultSyncAction where
  | unchanged
  | adoptRemote
  | pushLocal
  | conflict
  deriving DecidableEq

/-- Causal ancestry known for a provider during vault reconciliation. -/
inductive CommonContentHash where
  | unknown
  | known (hash : Str)

/-- Local and remote vault blobs awaiting one synchronisation decision. -/
structure VaultSyncComparison where
  localBlob : Str
  remoteBlob : Str
  lastCommonContentHash : CommonContentHash

namespace VaultSyncComparison

/-- The decision on two revisions of one vault by their versions. -/
def byVersion (localRev remoteRev : VaultRevision) : VaultSyncAction :=
  if localRev.version < remoteRev.version then .adoptRemote
  else if remoteRev.version < localRev.version then .pushLocal
  else if localRev.contentHash ≠ remoteRev.contentHash then .conflict
  else .unchanged

/-- The decision on two revisions of one vault: the remembered common ancestor
first, then the versions. -/
def byAncestry (localRev remoteRev : VaultRevision) : CommonContentHash → VaultSyncAction
  | .unknown => byVersion localRev remoteRev
  | .known baseHash =>
    if !(trim baseHash).isEmpty ∧ localRev.contentHash ≠ remoteRev.contentHash then
      let localMatchesBase := localRev.contentHash == trim baseHash
      let remoteMatchesBase := remoteRev.contentHash == trim baseHash
      if localMatchesBase ∧ !remoteMatchesBase then .adoptRemote
      else if remoteMatchesBase ∧ !localMatchesBase then .pushLocal
      else if !localMatchesBase ∧ !remoteMatchesBase then .conflict
      else byVersion localRev remoteRev
    else byVersion localRev remoteRev

/-- Two revisions of different vaults are not reconciled. -/
def checkStores (localStore remoteStore : VaultRevisionStore) : Except VaultSyncError Unit :=
  match localStore, remoteStore with
  | .identified localId, .identified remoteId =>
    if localId ≠ remoteId then .error (.storeIdMismatch localId remoteId) else .ok ()
  | _, _ => .ok ()

def decide (comparison : VaultSyncComparison) : Except VaultSyncError VaultSyncAction :=
  let localTrim := trim comparison.localBlob
  let remoteTrim := trim comparison.remoteBlob
  if localTrim = remoteTrim then .ok .unchanged
  else if localTrim.isEmpty ∧ remoteTrim.isEmpty then .ok .unchanged
  else if localTrim.isEmpty then .ok .adoptRemote
  else if remoteTrim.isEmpty then .ok .pushLocal
  else do
    let localRev ← VaultRevision.fromStored localTrim
    let remoteRev ← VaultRevision.fromStored remoteTrim
    checkStores localRev.store remoteRev.store
    return byAncestry localRev remoteRev comparison.lastCommonContentHash

end VaultSyncComparison

/-! ### Stores and the transition prepared for them -/

/-- Provider revision state for stores that may not have been written remotely yet. -/
inductive StoreRevision where
  | unversioned
  | version (revision : Str)

/-- An unsigned decimal number of 64 bits, as `str::parse` reads it. -/
def parseU64 (raw : Str) : Option Nat :=
  let digits := (stripPrefix raw ['+']).getD raw
  if digits.isEmpty || !digits.all Char.isDigit then none
  else
    let value := digits.foldl (fun sum digit => 10 * sum + (digit.toNat - '0'.toNat)) 0
    if value < 2 ^ 64 then some value else none

/-- Advance this revision using the in-memory provider revision format. -/
def StoreRevision.next (revision : StoreRevision) : Str :=
  let currentNumber := match revision with
    | .unversioned => 0
    | .version value => ((stripPrefix value "rev-".toList).bind parseU64).getD 0
  "rev-".toList ++ (toString (min (currentNumber + 1) (2 ^ 64 - 1))).toList

/-- A single vault blob plus its explicit provider revision state. -/
structure MemoryVaultStore where
  blob : Str
  revision : StoreRevision

namespace MemoryVaultStore

/-- Resolve a conflict by replacing `remote` with this local store. -/
def keepLocal (store remote : MemoryVaultStore) : MemoryVaultStore :=
  ⟨store.blob, .version remote.revision.next⟩

/-- Resolve a conflict by replacing this local store with `remote`. -/
def keepRemote (_ : MemoryVaultStore) (remote : MemoryVaultStore) : MemoryVaultStore :=
  ⟨remote.blob, remote.revision⟩

end MemoryVaultStore

structure VaultSyncPair where
  localStore : MemoryVaultStore
  remoteStore : MemoryVaultStore
  lastCommonContentHash : CommonContentHash

/-- Two stores with the action prepared for them; a committed or cancelled pair
has the same fields. -/
structure PreparedVaultSync where
  localStore : MemoryVaultStore
  remoteStore : MemoryVaultStore
  action : VaultSyncAction

structure RejectedVaultSync where
  localStore : MemoryVaultStore
  remoteStore : MemoryVaultStore
  cause : VaultSyncError

def VaultSyncPair.prepare (pair : VaultSyncPair) : Except RejectedVaultSync PreparedVaultSync :=
  let comparison : VaultSyncComparison :=
    ⟨pair.localStore.blob, pair.remoteStore.blob, pair.lastCommonContentHash⟩
  match comparison.decide with
  | .ok action => .ok ⟨pair.localStore, pair.remoteStore, action⟩
  | .error cause => .error ⟨pair.localStore, pair.remoteStore, cause⟩

omit [VaultText] in
def PreparedVaultSync.commit (prepared : PreparedVaultSync) : PreparedVaultSync :=
  match prepared.action with
  | .unchanged | .conflict => prepared
  | .adoptRemote =>
    { prepared with localStore := prepared.localStore.keepRemote prepared.remoteStore }
  | .pushLocal =>
    { prepared with remoteStore := prepared.localStore.keepLocal prepared.remoteStore }

/-! ### Both sides are treated alike -/

namespace VaultSyncAction

/-- The same action seen from the other side. -/
def swapped : VaultSyncAction → VaultSyncAction
  | .adoptRemote => .pushLocal
  | .pushLocal => .adoptRemote
  | .unchanged => .unchanged
  | .conflict => .conflict

end VaultSyncAction

namespace VaultSyncComparison

def swapped (comparison : VaultSyncComparison) : VaultSyncComparison :=
  ⟨comparison.remoteBlob, comparison.localBlob, comparison.lastCommonContentHash⟩

omit [VaultText]

theorem byVersion_swapped (localRev remoteRev : VaultRevision) :
    byVersion remoteRev localRev = (byVersion localRev remoteRev).swapped := by
  unfold byVersion
  by_cases older : localRev.version < remoteRev.version
  · have newer : ¬ remoteRev.version < localRev.version := UInt64.lt_asymm older
    simp only [older, newer, if_true, if_false, VaultSyncAction.swapped]
  · by_cases newer : remoteRev.version < localRev.version
    · simp only [older, newer, if_true, if_false, VaultSyncAction.swapped]
    · by_cases same : localRev.contentHash = remoteRev.contentHash
      · simp [older, newer, same, VaultSyncAction.swapped]
      · have same' : ¬ remoteRev.contentHash = localRev.contentHash := fun equal => same equal.symm
        simp [older, newer, same, same', VaultSyncAction.swapped]

/-- With a base, the side that has left it wins; if both have, neither does. -/
theorem byAncestry_known {localRev remoteRev : VaultRevision} {baseHash : Str}
    (filled : (trim baseHash).isEmpty = false)
    (differ : localRev.contentHash ≠ remoteRev.contentHash) :
    byAncestry localRev remoteRev (.known baseHash) =
      if localRev.contentHash = trim baseHash then .adoptRemote
      else if remoteRev.contentHash = trim baseHash then .pushLocal else .conflict := by
  unfold byAncestry
  by_cases localBase : localRev.contentHash = trim baseHash
  · have remoteBase : ¬ remoteRev.contentHash = trim baseHash :=
      fun same => differ (localBase.trans same.symm)
    simp [filled, localBase, remoteBase, Ne.symm remoteBase]
  · by_cases remoteBase : remoteRev.contentHash = trim baseHash
    · simp [filled, localBase, remoteBase]
    · simp [filled, differ, localBase, remoteBase]

theorem byAncestry_same {localRev remoteRev : VaultRevision} (common : CommonContentHash)
    (same : localRev.contentHash = remoteRev.contentHash) :
    byAncestry localRev remoteRev common = byVersion localRev remoteRev := by
  cases common with
  | unknown => rfl
  | known baseHash => simp [byAncestry, same]

theorem byAncestry_blank {localRev remoteRev : VaultRevision} {baseHash : Str}
    (blank : (trim baseHash).isEmpty = true) :
    byAncestry localRev remoteRev (.known baseHash) = byVersion localRev remoteRev := by
  simp [byAncestry, blank]

theorem byAncestry_swapped (localRev remoteRev : VaultRevision) (common : CommonContentHash) :
    byAncestry remoteRev localRev common = (byAncestry localRev remoteRev common).swapped := by
  by_cases same : localRev.contentHash = remoteRev.contentHash
  · rw [byAncestry_same common same, byAncestry_same common same.symm, byVersion_swapped]
  · cases common with
    | unknown => exact byVersion_swapped localRev remoteRev
    | known baseHash =>
      cases blank : (trim baseHash).isEmpty with
      | true => rw [byAncestry_blank blank, byAncestry_blank blank, byVersion_swapped]
      | false =>
        rw [byAncestry_known blank same, byAncestry_known blank (Ne.symm same)]
        by_cases localBase : localRev.contentHash = trim baseHash
        · have remoteBase : ¬ remoteRev.contentHash = trim baseHash :=
            fun equal => same (localBase.trans equal.symm)
          rw [if_neg remoteBase, if_pos localBase, if_pos localBase]
          rfl
        · rw [if_neg localBase, if_neg localBase]
          split <;> rfl

theorem checkStores_comm (left right : VaultRevisionStore) :
    (checkStores left right).toOption = (checkStores right left).toOption := by
  cases left with
  | emptyVault => cases right <;> rfl
  | identified leftId =>
    cases right with
    | emptyVault => rfl
    | identified rightId =>
      unfold checkStores
      by_cases same : leftId = rightId
      · simp [same]
      · have same' : ¬ rightId = leftId := fun equal => same equal.symm
        simp [same, same', Except.toOption]

variable [VaultText]

/-- Exchanging the sides exchanges adopting and pushing, and neither refuses
without the other. -/
theorem decide_swapped (comparison : VaultSyncComparison) :
    comparison.swapped.decide.toOption =
      comparison.decide.toOption.map VaultSyncAction.swapped := by
  unfold decide swapped
  simp only
  by_cases same : trim comparison.localBlob = trim comparison.remoteBlob
  · simp [same, Except.toOption, VaultSyncAction.swapped]
  · have same' : ¬ trim comparison.remoteBlob = trim comparison.localBlob :=
      fun equal => same equal.symm
    rw [if_neg same, if_neg same']
    by_cases blankLocal : (trim comparison.localBlob).isEmpty
    · have filled : ¬ (trim comparison.remoteBlob).isEmpty := by
        intro blankRemote
        rw [List.isEmpty_iff] at blankLocal blankRemote
        exact same (blankLocal.trans blankRemote.symm)
      simp [blankLocal, filled, Except.toOption, VaultSyncAction.swapped]
    · by_cases blankRemote : (trim comparison.remoteBlob).isEmpty
      · simp [blankLocal, blankRemote, Except.toOption, VaultSyncAction.swapped]
      · simp only [blankLocal, blankRemote, and_self]
        cases VaultRevision.fromStored (trim comparison.localBlob) with
        | error cause =>
          cases VaultRevision.fromStored (trim comparison.remoteBlob) <;> rfl
        | ok localRev =>
          cases VaultRevision.fromStored (trim comparison.remoteBlob) with
          | error cause => rfl
          | ok remoteRev =>
            have stores := checkStores_comm localRev.store remoteRev.store
            have actions := byAncestry_swapped localRev remoteRev comparison.lastCommonContentHash
            change ((checkStores remoteRev.store localRev.store).bind fun _ =>
                Except.ok (byAncestry remoteRev localRev _)).toOption =
              Option.map _ ((checkStores localRev.store remoteRev.store).bind fun _ =>
                Except.ok (byAncestry localRev remoteRev _)).toOption
            rw [actions]
            cases checked : checkStores localRev.store remoteRev.store with
            | error cause =>
              cases checked' : checkStores remoteRev.store localRev.store with
              | error cause' => rfl
              | ok done =>
                rw [checked, checked'] at stores
                cases stores
            | ok done =>
              cases checked' : checkStores remoteRev.store localRev.store with
              | error cause =>
                rw [checked, checked'] at stores
                cases stores
              | ok done' => rfl

/-- What the decision on two filled sides rests on. -/
theorem decide_of_filled {comparison : VaultSyncComparison} {action : VaultSyncAction}
    (filledLocal : (trim comparison.localBlob).isEmpty = false)
    (filledRemote : (trim comparison.remoteBlob).isEmpty = false)
    (differ : trim comparison.localBlob ≠ trim comparison.remoteBlob)
    (decided : comparison.decide = .ok action) :
    ∃ localRev remoteRev : VaultRevision,
      localRev.contentHash = VaultRevision.hashOf comparison.localBlob ∧
      remoteRev.contentHash = VaultRevision.hashOf comparison.remoteBlob ∧
      action = byAncestry localRev remoteRev comparison.lastCommonContentHash := by
  unfold decide at decided
  simp only [differ, filledLocal, filledRemote, Bool.false_eq_true, and_self, if_false] at decided
  obtain ⟨localRev, readLocal, decided⟩ := bind_eq_ok.mp decided
  obtain ⟨remoteRev, readRemote, decided⟩ := bind_eq_ok.mp decided
  obtain ⟨_, _, decided⟩ := bind_eq_ok.mp decided
  exact ⟨localRev, remoteRev, VaultRevision.contentHash_fromStored readLocal,
    VaultRevision.contentHash_fromStored readRemote, (Except.ok.inj decided).symm⟩

/-- With a base, a side is given up only if it is still the base. -/
theorem decide_keeps_unseen {comparison : VaultSyncComparison} {baseHash : Str}
    (known : comparison.lastCommonContentHash = .known baseHash)
    (filledBase : (trim baseHash).isEmpty = false)
    (filledLocal : (trim comparison.localBlob).isEmpty = false)
    (filledRemote : (trim comparison.remoteBlob).isEmpty = false)
    (apart : VaultRevision.hashOf comparison.localBlob = VaultRevision.hashOf comparison.remoteBlob →
      trim comparison.localBlob = trim comparison.remoteBlob) :
    (comparison.decide = .ok .adoptRemote →
      VaultRevision.hashOf comparison.localBlob = trim baseHash) ∧
    (comparison.decide = .ok .pushLocal →
      VaultRevision.hashOf comparison.remoteBlob = trim baseHash) := by
  by_cases same : trim comparison.localBlob = trim comparison.remoteBlob
  · have unchanged : comparison.decide = .ok .unchanged := by simp [decide, same]
    constructor <;> intro decided <;> rw [unchanged] at decided <;> cases decided
  · constructor
    · intro decided
      obtain ⟨localRev, remoteRev, localHash, remoteHash, action⟩ :=
        decide_of_filled filledLocal filledRemote same decided
      have differ : localRev.contentHash ≠ remoteRev.contentHash := by
        rw [localHash, remoteHash]
        exact fun equal => same (apart equal)
      rw [known, byAncestry_known filledBase differ] at action
      split at action
      · rename_i base
        rw [← localHash, base]
      · split at action <;> cases action
    · intro decided
      obtain ⟨localRev, remoteRev, localHash, remoteHash, action⟩ :=
        decide_of_filled filledLocal filledRemote same decided
      have differ : localRev.contentHash ≠ remoteRev.contentHash := by
        rw [localHash, remoteHash]
        exact fun equal => same (apart equal)
      rw [known, byAncestry_known filledBase differ] at action
      split at action
      · cases action
      · split at action
        · rename_i base
          rw [← remoteHash, base]
        · cases action

end VaultSyncComparison

/-- After the prepared action is performed the two stores agree, whichever common
hash is remembered then. -/
theorem PreparedVaultSync.decide_commit {prepared : PreparedVaultSync}
    (moves : prepared.action = .adoptRemote ∨ prepared.action = .pushLocal)
    (common : CommonContentHash) :
    VaultSyncComparison.decide ⟨prepared.commit.localStore.blob, prepared.commit.remoteStore.blob,
      common⟩ = .ok .unchanged := by
  have same : prepared.commit.localStore.blob = prepared.commit.remoteStore.blob := by
    unfold commit
    rcases moves with adopts | pushes
    · rw [adopts]
      rfl
    · rw [pushes]
      rfl
  simp [VaultSyncComparison.decide, same]

/-- The decision treats the sides alike; with a base it gives up a filled side only
if that side is still the base (the two contents not colliding under SHA-256); and
the performed action leaves nothing to do. -/
theorem vault_sync_decision :
    (∀ comparison : VaultSyncComparison, comparison.swapped.decide.toOption =
      comparison.decide.toOption.map VaultSyncAction.swapped) ∧
    (∀ localBlob remoteBlob baseHash : Str, (trim baseHash).isEmpty = false →
      (trim localBlob).isEmpty = false → (trim remoteBlob).isEmpty = false →
      (VaultRevision.hashOf localBlob = VaultRevision.hashOf remoteBlob →
        trim localBlob = trim remoteBlob) →
      (VaultSyncComparison.decide ⟨localBlob, remoteBlob, .known baseHash⟩ = .ok .adoptRemote →
        VaultRevision.hashOf localBlob = trim baseHash) ∧
      (VaultSyncComparison.decide ⟨localBlob, remoteBlob, .known baseHash⟩ = .ok .pushLocal →
        VaultRevision.hashOf remoteBlob = trim baseHash)) ∧
    (∀ (pair : VaultSyncPair) (prepared : PreparedVaultSync), pair.prepare = .ok prepared →
      prepared.action = .adoptRemote ∨ prepared.action = .pushLocal →
      ∀ common : CommonContentHash, VaultSyncComparison.decide ⟨prepared.commit.localStore.blob,
        prepared.commit.remoteStore.blob, common⟩ = .ok .unchanged) := by
  refine ⟨VaultSyncComparison.decide_swapped, ?_, ?_⟩
  · intro localBlob remoteBlob baseHash filledBase filledLocal filledRemote apart
    exact VaultSyncComparison.decide_keeps_unseen rfl filledBase filledLocal filledRemote apart
  · intro pair prepared _ moves common
    exact PreparedVaultSync.decide_commit moves common

end

namespace TestSupport

/-! A vault and its successor, with their digests. -/

def baseVault : Str := "schema_version: 1\nstore_id: store_AAAAAAAAAAA".toList

def nextVault : Str :=
  "schema_version: 1\nvault_version: 2\nstore_id: store_AAAAAAAAAAA".toList

def baseVaultHash : Str :=
  "21f82eb3ebc3bb57863cf836cdc8e6415c34b6ce07281f867ed27f9fb6858808".toList

def nextVaultHash : Str :=
  "f55d2636e4bfc587a152529925b8481c88176fba610a873840a52b3b490406cc".toList

def emptyHash : Str := "e3b0c44298fc1c149afbf4c8996fb92427ae41e4649b934ca495991b7852b855".toList

@[reducible] def vaultText : VaultText where
  parseYaml text :=
    if text = baseVault then some ⟨1, 0, .assigned "store_AAAAAAAAAAA".toList⟩
    else if text = nextVault then some ⟨1, 2, .assigned "store_AAAAAAAAAAA".toList⟩
    else none
  sha256Hex text :=
    if text = baseVault then baseVaultHash
    else if text = nextVault then nextVaultHash
    else emptyHash

attribute [local instance] vaultText

theorem vault_sync_decision_successor :
    VaultSyncComparison.decide ⟨baseVault, nextVault, .known baseVaultHash⟩ =
        .ok .adoptRemote ∧
      VaultRevision.hashOf baseVault = trim baseVaultHash ∧
      VaultSyncComparison.decide ⟨nextVault, nextVault, .unknown⟩ = .ok .unchanged := by
  have decided : VaultSyncComparison.decide ⟨baseVault, nextVault, .known baseVaultHash⟩ =
      .ok .adoptRemote := by decide +kernel
  have sound := vault_sync_decision
  refine ⟨decided, ?_, ?_⟩
  · exact (sound.2.1 baseVault nextVault baseVaultHash (by decide +kernel) (by decide +kernel)
      (by decide +kernel) (by decide +kernel)).1 decided
  · let pair : VaultSyncPair := ⟨⟨baseVault, .unversioned⟩, ⟨nextVault, .unversioned⟩,
      .known baseVaultHash⟩
    have prepared : pair.prepare = .ok ⟨pair.localStore, pair.remoteStore, .adoptRemote⟩ := by
      unfold VaultSyncPair.prepare
      simp only [pair, decided]
    exact sound.2.2 pair _ prepared (.inl rfl) .unknown

/-- A blank local text is given up although it is not the base. -/
theorem blank_local_given_up :
    ¬ ∀ localBlob remoteBlob baseHash : Str, trim baseHash ≠ [] → localBlob ≠ [] →
      remoteBlob ≠ [] → localBlob ≠ remoteBlob →
      VaultSyncComparison.decide ⟨localBlob, remoteBlob, .known baseHash⟩ = .ok .adoptRemote →
        VaultRevision.hashOf localBlob = trim baseHash := by
  intro kept
  exact absurd (kept [' '] nextVault baseVaultHash (by decide +kernel) (by decide)
    (by decide +kernel) (by decide +kernel) (by decide +kernel)) (by decide +kernel)

end TestSupport

end Nook.Sync
