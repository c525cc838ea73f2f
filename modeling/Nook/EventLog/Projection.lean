import Nook.EventLog.Graph

set_option autoImplicit false

namespace Nook.EventLog

open Nook.Lib Nook.Replication

/-! ### Key epochs -/

/-- Identifies the epoch protecting private event payloads. -/
abbrev KeyEpoch := EventId

/-- Why a new key epoch was started. -/
inductive EpochRotationReason where
  | genesis
  | deviceRevoked
  | accessGrant
  | concurrentVaultMutation
  deriving DecidableEq

inductive EpochTransition where
  | unchanged
  | rotated (reason : EpochRotationReason)
  deriving DecidableEq

/-- Record of an epoch transition in the projection. -/
structure EpochRecord where
  epoch : KeyEpoch
  startedBy : EventId
  reason : EpochRotationReason
  deriving DecidableEq

/-- Detect whether an operation starts a new key epoch. -/
def VaultOperation.operationStartsEpoch : VaultOperation → EpochTransition
  | vaultImported .. => .rotated .genesis
  | deviceRevoked _ => .rotated .deviceRevoked
  | _ => .unchanged

namespace EpochRotationReason

def rotatesAccess : EpochRotationReason → Bool
  | deviceRevoked => true
  | _ => false

def mutatesAccess : EpochRotationReason → Bool
  | accessGrant => true
  | concurrentVaultMutation => true
  | _ => false

/-- Whether two epoch-starting events are a security conflict when concurrent. -/
def concurrentEpochRotationsConflict (left right : EpochRotationReason) : Bool :=
  (left.rotatesAccess && (right.rotatesAccess || right.mutatesAccess)) ||
    (right.rotatesAccess && left.mutatesAccess)

end EpochRotationReason

/-! ### Projected state -/

inductive ProjectedSecretLifecycle where
  | live
  | deleted (deletedBy : EventId)
  deriving DecidableEq

inductive ProjectedSecretOrigin where
  | created
  | replacement (replaced : SecretId)
  deriving DecidableEq

/-- One live or tombstoned secret in the encrypted projection. -/
structure ProjectedSecret where
  record : StoredSecretRecord
  identityFingerprint : SecretFingerprint
  fingerprint : SecretFingerprint
  createdBy : EventId
  lifecycle : ProjectedSecretLifecycle
  origin : ProjectedSecretOrigin
  deriving DecidableEq

def ProjectedSecret.isLive (secret : ProjectedSecret) (graph : EventGraph) : Bool :=
  match secret.lifecycle with
  | .live => true
  | .deleted deletedBy => !graph.isAncestor secret.createdBy deletedBy

/-- Concurrent replacement candidates for one old secret id, by event id. -/
structure SecretReplacementConflict where
  oldSecretId : SecretId
  candidates : BTreeMap EventId SecretId

/-- Concurrent security-sensitive epoch transitions. -/
structure SecurityConflict where
  events : List EventId
  reasons : List EpochRotationReason
  deriving DecidableEq

/-- The vault's display name as the event log last set it. -/
inductive ProjectedVaultName where
  | unnamed
  | named (name : OpaqueCiphertext)
  deriving DecidableEq

inductive ProjectionEpoch where
  | beforeGenesis
  | current (epoch : KeyEpoch)
  deriving DecidableEq

/-- Materialized encrypted vault state derived from events. -/
structure VaultProjection where
  storeId : StoreId
  epoch : ProjectionEpoch
  epochHistory : List EpochRecord
  secrets : BTreeMap SecretId ProjectedSecret
  vaultName : ProjectedVaultName
  replacementConflicts : BTreeMap SecretId SecretReplacementConflict
  securityConflicts : List SecurityConflict
  unresolvedSchema : Bool
  cleared : Bool

/-- The replacements of each old secret id since its last resolution. -/
abbrev ReplacementsByOld := BTreeMap SecretId (List (EventId × SecretId))

namespace VaultProjection

def default : VaultProjection where
  storeId := StoreId.beforeGenesisPlaceholder
  epoch := .beforeGenesis
  epochHistory := []
  secrets := ∅
  vaultName := .unnamed
  replacementConflicts := ∅
  securityConflicts := []
  unresolvedSchema := false
  cleared := false

def liveSecrets (projection : VaultProjection) (graph : EventGraph) :
    BTreeMap Str StoredSecretRecord :=
  projection.secrets.toList.foldl (fun live entry =>
    if entry.2.isLive graph then live.insert entry.1.asStr entry.2.record else live) ∅

def hasBlockingConflicts (projection : VaultProjection) : Bool :=
  !projection.replacementConflicts.isEmpty || !projection.securityConflicts.isEmpty

/-! ### Application of one operation -/

def insertSecret (projection : VaultProjection) (eventId : EventId)
    (secret : EncryptedSecretPayload) (origin : ProjectedSecretOrigin) : VaultProjection :=
  { projection with
    secrets := projection.secrets.insert secret.id {
      record := secret.toStored
      identityFingerprint := secret.identityFingerprint
      fingerprint := secret.fingerprint
      createdBy := eventId
      lifecycle := .live
      origin := origin } }

def insertCreated (eventId : EventId) (projection : VaultProjection)
    (secret : EncryptedSecretPayload) : VaultProjection :=
  projection.insertSecret eventId secret .created

/-- Tombstone an entry, if there is one. -/
def deleteSecret (eventId : EventId) (projection : VaultProjection) (secretId : SecretId) :
    VaultProjection :=
  match projection.secrets[secretId]? with
  | some entry =>
    { projection with
      secrets := projection.secrets.insert secretId { entry with lifecycle := .deleted eventId } }
  | none => projection

def projectedName : EpochVaultName → ProjectedVaultName
  | .unnamed => .unnamed
  | .named name => .named name

def applyOperation (projection : VaultProjection) (eventId : EventId)
    (replacementsByOld : ReplacementsByOld) :
    VaultOperation → VaultProjection × ReplacementsByOld
  | .vaultImported _ secrets =>
    (secrets.foldl (insertCreated eventId) projection, replacementsByOld)
  | .epochCheckpoint secrets _ _ vaultName =>
    let emptied := { projection with secrets := ∅, vaultName := projectedName vaultName }
    (secrets.foldl (insertCreated eventId) emptied, replacementsByOld)
  | .secretCreated secret => (insertCreated eventId projection secret, replacementsByOld)
  | .secretDeleted secretId => (deleteSecret eventId projection secretId, replacementsByOld)
  | .secretReplaced oldId newSecret =>
    let replaced := (deleteSecret eventId projection oldId).insertSecret eventId newSecret
      (.replacement oldId)
    (replaced, replacementsByOld.insert oldId
      ((replacementsByOld[oldId]?).getD [] ++ [(eventId, newSecret.id)]))
  | .secretConflictResolved oldId _ rejectedSecretIds =>
    let rejected := rejectedSecretIds.foldl (deleteSecret eventId) projection
    ({ rejected with replacementConflicts := rejected.replacementConflicts.erase oldId },
      replacementsByOld.erase oldId)
  | .vaultNamed name => ({ projection with vaultName := .named name }, replacementsByOld)
  | .vaultCleared => ({ projection with cleared := true, secrets := ∅ }, replacementsByOld)
  | _ => (projection, replacementsByOld)

/-! ### Conflicts -/

/-- Whether two of the replacing events are concurrent. -/
def hasConcurrent (graph : EventGraph) (entries : List (EventId × SecretId)) : Bool :=
  let uniqueEvents := entries.map Prod.fst
  uniqueEvents.any fun left =>
    uniqueEvents.any fun right => left != right && graph.areConcurrent left right

def candidates (entries : List (EventId × SecretId)) : BTreeMap EventId SecretId :=
  entries.foldl (fun candidates entry => candidates.insert entry.1 entry.2) ∅

def detectReplacementConflict (graph : EventGraph)
    (conflicts : BTreeMap SecretId SecretReplacementConflict)
    (entry : SecretId × List (EventId × SecretId)) :
    BTreeMap SecretId SecretReplacementConflict :=
  if hasConcurrent graph entry.2 && 1 < entry.2.length then
    conflicts.insert entry.1 ⟨entry.1, candidates entry.2⟩
  else conflicts

def detectReplacementConflicts (graph : EventGraph) (replacementsByOld : ReplacementsByOld) :
    BTreeMap SecretId SecretReplacementConflict :=
  replacementsByOld.toList.foldl (detectReplacementConflict graph) ∅

/-- The conflicts of one event with those after it in the order of their ids. -/
def securityConflictsWith (graph : EventGraph) (left : EventId × EpochRotationReason)
    (later : List (EventId × EpochRotationReason)) : List SecurityConflict :=
  later.filterMap fun right =>
    if graph.areConcurrent left.1 right.1 && left.2.concurrentEpochRotationsConflict right.2 then
      some ⟨[left.1, right.1], [left.2, right.2]⟩
    else none

def securityConflictPairs (graph : EventGraph) :
    List (EventId × EpochRotationReason) → List SecurityConflict
  | [] => []
  | left :: later => securityConflictsWith graph left later ++ securityConflictPairs graph later

def detectSecurityConflicts (graph : EventGraph)
    (securityEvents : BTreeMap EventId EpochRotationReason) : List SecurityConflict :=
  securityConflictPairs graph securityEvents.toList

end VaultProjection

/-! ### The projection of a graph -/

/-- The variables of the fold over the topological order. -/
structure ProjectionState where
  projection : VaultProjection
  epochEvents : BTreeMap EventId EpochRotationReason
  securityEvents : BTreeMap EventId EpochRotationReason
  replacementsByOld : ReplacementsByOld

namespace ProjectionState

def start (storeId : StoreId) : ProjectionState where
  projection := { VaultProjection.default with storeId := storeId }
  epochEvents := ∅
  securityEvents := ∅
  replacementsByOld := ∅

/-- `entry(..).or_insert(..)`. -/
def orInsert (events : BTreeMap EventId EpochRotationReason) (id : EventId)
    (reason : EpochRotationReason) : BTreeMap EventId EpochRotationReason :=
  if events.contains id then events else events.insert id reason

/-- The reason for which an operation that starts no epoch is recorded. -/
def mutationReason : VaultOperation → Option EpochRotationReason
  | .joinApproved .. => some .accessGrant
  | .epochCheckpoint .. => none
  | .joinRequested .. => none
  | _ => some .concurrentVaultMutation

def recordTransition (state : ProjectionState) (id : EventId) (operation : VaultOperation) :
    ProjectionState :=
  match operation.operationStartsEpoch with
  | .rotated reason =>
    { state with
      epochEvents := state.epochEvents.insert id reason
      securityEvents := state.securityEvents.insert id reason }
  | .unchanged => state

def recordMutation (state : ProjectionState) (id : EventId) (operation : VaultOperation) :
    ProjectionState :=
  match mutationReason operation with
  | some reason => { state with securityEvents := orInsert state.securityEvents id reason }
  | none => state

def operation (id : EventId) (state : ProjectionState) (operation : VaultOperation) :
    ProjectionState :=
  let state := (state.recordTransition id operation).recordMutation id operation
  let applied := state.projection.applyOperation id state.replacementsByOld operation
  { state with projection := applied.1, replacementsByOld := applied.2 }

variable [External]

def updateEpoch (state : ProjectionState) (id : EventId) (body : VaultEventBody) :
    ProjectionState :=
  match EventId.parse body.keyEpoch.asStr with
  | .error _ => state
  | .ok epoch =>
    if state.projection.epoch = .current epoch then state
    else
      let epochHistory := match state.epochEvents[id]? with
        | some reason => state.projection.epochHistory ++ [⟨epoch, id, reason⟩]
        | none => state.projection.epochHistory
      { state with
        projection := { state.projection with
          epoch := .current epoch, epochHistory := epochHistory } }

def event (graph : EventGraph) (expectedStore : StoreId) (state : ProjectionState)
    (id : EventId) : EventResult ProjectionState :=
  match graph.events[id]? with
  | none => .error (.missingEvent id.asStr)
  | some event =>
    if event.body.storeId ≠ expectedStore then .error .projectionStoreMismatch
    else if !event.body.schemaVersion.isSupported then
      .ok { state with projection := { state.projection with unresolvedSchema := true } }
    else .ok ((event.body.operations.foldl (operation id) state).updateEpoch id event.body)

def finish (graph : EventGraph) (state : ProjectionState) : VaultProjection :=
  { state.projection with
    securityConflicts :=
      VaultProjection.detectSecurityConflicts graph state.securityEvents
    replacementConflicts :=
      VaultProjection.detectReplacementConflicts graph state.replacementsByOld }

end ProjectionState

namespace VaultProjection

variable [External]

/-- The fold over the events in a given order, with the conflicts found at its end. -/
def fromOrder (graph : EventGraph) (expectedStore : StoreId) (order : List EventId) :
    EventResult VaultProjection := do
  let state ← order.foldlM (ProjectionState.event graph expectedStore)
    (ProjectionState.start expectedStore)
  return state.finish graph

/-- Rebuild projection from the event graph. -/
def fromGraph (graph : EventGraph) (storeId : Str) : EventResult VaultProjection := do
  let expectedStore ← (StoreId.parse storeId).mapError .validation
  let order ← graph.topologicalOrder
  fromOrder graph expectedStore order

end VaultProjection

end Nook.EventLog
