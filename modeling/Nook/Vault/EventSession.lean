import Nook.EventLog.Builder
import Nook.EventLog.Projection

set_option autoImplicit false

namespace Nook.Vault

open Nook.Lib Nook.EventLog

/-- Why a session transition is refused: the errors that the session itself tells apart. -/
inductive VaultError where
  | event (cause : EventError)
  | localAppendQuarantined (eventId : EventId) (reason : String)
  | isoTimestampInvalid
  | crypto (cause : String)
  deriving DecidableEq

abbrev VaultResult (α : Type) := Except VaultError α

abbrev SymmetricKey := Str

/-- The two symmetric keys of a vault. -/
structure VaultKeys where
  secretsKey : SymmetricKey
  membersKey : SymmetricKey

/-- The encryption under a rotation: secrets and vault name sealed again under a
new key, and the digest of the member records sealed under it. -/
class VaultEpochCrypto where
  reencryptSecrets : List StoredSecretRecord → SymmetricKey → SymmetricKey →
    VaultResult (List EncryptedSecretPayload)
  reencryptName : ProjectedVaultName → SymmetricKey → SymmetricKey → VaultResult EpochVaultName
  membersCheckpointHash : List StoredSecretRecord → SymmetricKey → VaultResult Sha256Hex

def parseIsoTimestamp (raw : Str) : VaultResult IsoTimestamp :=
  let timestamp := trim raw
  if timestamp.isEmpty then .error .isoTimestampInvalid
  else if !timestamp.contains 'T' && !timestamp.any Char.isDigit then .error .isoTimestampInvalid
  else .ok ⟨timestamp⟩

inductive EventPublicationDestination where
  | localOnly
  | provider (providerId : Str)

structure VaultSecurityEpochRotationInput where
  trigger : VaultOperation
  newKeys : VaultKeys
  userRecords : List StoredSecretRecord
  oldSecretsKey : SymmetricKey
  membersRecords : List StoredSecretRecord
  rotatedMetaRecords : List StoredSecretRecord
  /-- The name the projection holds under the retiring key. -/
  vaultName : ProjectedVaultName
  createdAt : Str
  destination : EventPublicationDestination

structure VaultEventAppend where
  operations : List VaultOperation
  createdAt : Str
  destination : EventPublicationDestination

/-- In-memory event-log session state shared by WASM adapters and integration tests. -/
structure VaultEventSession where
  store : LocalEventStore
  storeId : Str
  heads : List Str
  keyEpoch : Str
  signing : SigningIdentity
  signingSeed : Str

structure VaultEventAppended where
  session : VaultEventSession
  eventId : EventId

/-- A refused transition gives the session back. -/
structure VaultEventSessionRejection where
  session : VaultEventSession
  cause : VaultError

structure VaultEpochRotated where
  session : VaultEventSession
  keys : VaultKeys

structure VaultOutboxFlushed where
  session : VaultEventSession
  remote : LocalEventStore

structure PreparedSessionEvent where
  eventId : EventId
  bytes : EventStorageBytes

/-- The candidate graph, once it is loaded, and the events prepared on it. -/
structure SessionCandidate where
  graph : Option EventGraph
  prepared : List PreparedSessionEvent

variable [External] [Storage] [EventWriter] [VaultEpochCrypto]

namespace VaultEventSession

omit [EventWriter] [VaultEpochCrypto] in
def setHeadsFromGraph (session : VaultEventSession) :
    Except VaultEventSessionRejection VaultEventSession :=
  match session.store.loadGraph session.storeId with
  | .ok graph => .ok { session with heads := graph.heads.map Text.asStr }
  | .error cause => .error ⟨session, .event cause⟩

omit [EventWriter] [VaultEpochCrypto] in
/-- The graph an event is judged on: the candidate, loaded from the store at its first use. -/
def candidateGraph (session : VaultEventSession) : Option EventGraph → VaultResult EventGraph
  | none => (session.store.loadGraph session.storeId).mapError .event
  | some graph => .ok graph

omit [EventWriter] [VaultEpochCrypto] in
/-- Existing event ids are idempotent, even if unrelated stored data is malformed. -/
def prepareEvent (session : VaultEventSession) (candidate : SessionCandidate)
    (built : VaultEvent × EventStorageBytes) : VaultResult SessionCandidate := do
  let eventId ← built.1.id.mapError .event
  let prepared := candidate.prepared ++ [⟨eventId, built.2⟩]
  match session.store.getBytes eventId with
  | .stored _ => return { candidate with prepared := prepared }
  | .unknownEvent =>
    let graph ← session.candidateGraph candidate.graph
    let inserted ← (graph.insert built.1 session.storeId).mapError fun rejection =>
      .event rejection.cause
    match inserted.status with
    | .quarantined reason => throw (.localAppendQuarantined eventId reason)
    | _ => return ⟨some inserted.graph, prepared⟩

omit [EventWriter] [VaultEpochCrypto] in
def preparePublication (session : VaultEventSession)
    (events : List (VaultEvent × EventStorageBytes)) : VaultResult (List PreparedSessionEvent) := do
  let candidate ← events.foldlM session.prepareEvent ⟨none, []⟩
  return candidate.prepared

omit [External] [Storage] [EventWriter] [VaultEpochCrypto] in
def publishEvent (destination : EventPublicationDestination) (session : VaultEventSession)
    (event : PreparedSessionEvent) : VaultEventSession :=
  let store := match destination with
    | .provider providerId => session.store.queueOutbox providerId event.eventId event.bytes
    | .localOnly => session.store
  { session with
    heads := [event.eventId.asStr]
    store := store.putEvent event.eventId event.bytes }

omit [External] [Storage] [EventWriter] [VaultEpochCrypto] in
def publish (session : VaultEventSession) (prepared : List PreparedSessionEvent)
    (destination : EventPublicationDestination) : VaultEventSession :=
  prepared.foldl (publishEvent destination) session

omit [Storage] [VaultEpochCrypto] in
/-- Build one event of the session's signer, with the text of its creation time. -/
def buildEvent (session : VaultEventSession) (parents : EventResult (List EventId))
    (keyEpoch : EventResult EventId) (createdAt : Str) (operations : List VaultOperation) :
    VaultResult (VaultEvent × EventStorageBytes) := do
  let storeId ← (StoreId.parse session.storeId).mapError fun cause => .event (.validation cause)
  let actorId ← session.signing.actorId.mapError .event
  let keyEpoch ← keyEpoch.mapError .event
  let createdAt ← parseIsoTimestamp createdAt
  let parents ← parents.mapError .event
  let input : AppendEventInput := {
    storeId := storeId
    actorId := actorId
    signingIdentity := session.signing
    parents := parents
    keyEpoch := keyEpoch
    createdAt := createdAt
    operations := operations }
  input.build.mapError .event

omit [VaultEpochCrypto] in
/-- The event of an append, on all the heads of the session. -/
def appendedEvent (session : VaultEventSession) (input : VaultEventAppend) :
    VaultResult (VaultEvent × EventStorageBytes) :=
  session.buildEvent (ObservedHeads.asParents <$> ObservedHeads.parse session.heads)
    (EventId.parse session.keyEpoch) input.createdAt input.operations

omit [VaultEpochCrypto] in
def prepareAppend (session : VaultEventSession) (input : VaultEventAppend) :
    VaultResult (List PreparedSessionEvent × EventId) := do
  let built ← session.appendedEvent input
  let eventId ← built.1.id.mapError .event
  return (← session.preparePublication [built], eventId)

omit [VaultEpochCrypto] in
def appendOperations (session : VaultEventSession) (input : VaultEventAppend) :
    Except VaultEventSessionRejection VaultEventAppended :=
  match session.prepareAppend input with
  | .ok (prepared, eventId) => .ok ⟨session.publish prepared input.destination, eventId⟩
  | .error cause => .error ⟨session, cause⟩

omit [EventWriter] [VaultEpochCrypto] in
def unionRemote (session : VaultEventSession)
    (remoteEvents : List (EventId × EventStorageBytes)) :
    Except VaultEventSessionRejection VaultEventSession :=
  match session.store.unionRemote ⟨remoteEvents, session.storeId⟩ with
  | .ok outcome => .ok { session with store := outcome.store, heads := outcome.heads }
  | .error rejected => .error ⟨{ session with store := rejected.store }, .event rejected.cause⟩

omit [External] [Storage] [EventWriter] [VaultEpochCrypto] in
def flushEntry (providerId : Str) (flushed : VaultOutboxFlushed)
    (entry : EventId × EventStorageBytes) : VaultOutboxFlushed where
  session := { flushed.session with
    store := flushed.session.store.dequeueOutbox providerId entry.1 }
  remote :=
    if flushed.remote.getBytes entry.1 = .unknownEvent then flushed.remote.putEvent entry.1 entry.2
    else flushed.remote

omit [External] [Storage] [EventWriter] [VaultEpochCrypto] in
def flushOutboxToRemote (session : VaultEventSession) (providerId : Str)
    (remote : LocalEventStore) : VaultOutboxFlushed :=
  (session.store.pendingOutbox providerId).foldl (flushEntry providerId) ⟨session, remote⟩

omit [External] [Storage] [EventWriter] in
def epochCheckpoint (input : VaultSecurityEpochRotationInput) : VaultResult VaultOperation := do
  let secrets ← VaultEpochCrypto.reencryptSecrets input.userRecords input.oldSecretsKey
    input.newKeys.secretsKey
  let vaultName ← VaultEpochCrypto.reencryptName input.vaultName input.oldSecretsKey
    input.newKeys.secretsKey
  let membersCheckpointHash ← VaultEpochCrypto.membersCheckpointHash input.membersRecords
    input.newKeys.membersKey
  return .epochCheckpoint secrets membersCheckpointHash (.replace input.rotatedMetaRecords)
    vaultName

/-- The two events of a rotation: the trigger on all the heads of the session, and the
checkpoint that commits it. -/
structure EpochPair where
  trigger : VaultEvent × EventStorageBytes
  triggerId : EventId
  checkpoint : VaultEvent × EventStorageBytes

omit [Storage] in
def epochPair (session : VaultEventSession) (input : VaultSecurityEpochRotationInput) :
    VaultResult EpochPair := do
  let checkpoint ← epochCheckpoint input
  let first ← session.buildEvent (ObservedHeads.asParents <$> ObservedHeads.parse session.heads)
    (EventId.parse session.keyEpoch) input.createdAt [input.trigger]
  let triggerId ← first.1.id.mapError .event
  let second ← session.buildEvent (.ok [triggerId]) (.ok triggerId) input.createdAt [checkpoint]
  return ⟨first, triggerId, second⟩

def prepareRotation (session : VaultEventSession) (input : VaultSecurityEpochRotationInput) :
    VaultResult (List PreparedSessionEvent × EventId) := do
  let pair ← session.epochPair input
  return (← session.preparePublication [pair.trigger, pair.checkpoint], pair.triggerId)

def rotateSecurityEpoch (session : VaultEventSession) (input : VaultSecurityEpochRotationInput) :
    Except VaultEventSessionRejection VaultEpochRotated :=
  match session.prepareRotation input with
  | .ok (prepared, triggerId) =>
    .ok ⟨{ session.publish prepared input.destination with keyEpoch := triggerId.asStr },
      input.newKeys⟩
  | .error cause => .error ⟨session, cause⟩

end VaultEventSession

end Nook.Vault
