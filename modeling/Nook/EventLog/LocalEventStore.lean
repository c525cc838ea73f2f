import Nook.EventLog.Graph
import Nook.Replication.ReplicaStore

set_option autoImplicit false

namespace Nook.EventLog

open Nook.Lib Nook.Replication

abbrev EventStorageBytes := Bytes

/-- The third-party YAML reader of a stored event, and the text of a UTF-8 decoding error. -/
class Storage where
  yamlFromStr : Str → Except String VaultEvent
  utf8Error : Bytes → String

variable [External] [Storage]

namespace VaultEvent

/-- Parse a stored event from YAML bytes. -/
def parseEventStorageBytes (bytes : EventStorageBytes) : EventResult VaultEvent :=
  match String.fromUTF8? ⟨bytes.toArray⟩ with
  | none =>
    .error (.parseStoredEvent ("event storage bytes are not UTF-8: " ++ Storage.utf8Error bytes))
  | some text =>
    (Storage.yamlFromStr text.toList).mapError fun cause =>
      .parseStoredEvent ("YAML parse failed: " ++ cause)

/-- Parse a remote event and classify errors for provider sync. -/
def parseRemoteEventStorageBytes (bytes : EventStorageBytes) : EventResult VaultEvent :=
  (parseEventStorageBytes bytes).mapError fun
    | .parseStoredEvent message => .parseRemoteEvent message
    | other => other

/-! ### Two-event security epoch transitions -/

def isDeviceRevoked : VaultOperation → Bool
  | .deviceRevoked _ => true
  | _ => false

def startsSecurityEpoch (event : VaultEvent) : Bool := event.body.operations.any isDeviceRevoked

inductive CheckpointCommit where
  | notCheckpoint
  | commits (parent : EventId)
  deriving DecidableEq

def CheckpointCommit.parent? : CheckpointCommit → Option EventId
  | commits parent => some parent
  | notCheckpoint => none

def committedEpochParent (event : VaultEvent) : CheckpointCommit :=
  let isCheckpoint := event.body.operations.any VaultOperation.isEpochCheckpoint
  match event.body.parents with
  | [parent] =>
    if isCheckpoint && event.body.keyEpoch = parent then .commits parent else .notCheckpoint
  | _ => .notCheckpoint

end VaultEvent

/-- The recorded events that are, or descend from, an applicable security trigger
without an applicable checkpoint that commits it. -/
def EventGraph.incompleteSecurityTransitionEvents (graph : EventGraph) :
    EventResult (BTreeSet EventId) := do
  let committed := graph.applicableEvents.filterMap fun event => event.committedEpochParent.parent?
  let securityTriggers ← (graph.applicableEvents.filter VaultEvent.startsSecurityEpoch).mapM
    VaultEvent.id
  let incomplete := securityTriggers.filter fun id => !committed.contains id
  return Std.ExtTreeSet.ofList (graph.events.keys.filter fun id =>
    incomplete.any fun trigger => trigger = id || graph.isAncestor trigger id) compare

/-- Local event persistence surface. -/
structure LocalEventStore where
  replica : ReplicaStore EventId

inductive LocalEventBytes where
  | unknownEvent
  | stored (bytes : EventStorageBytes)
  deriving DecidableEq

/-- A refused transition gives the store back. -/
structure LocalEventStoreRejection where
  store : LocalEventStore
  cause : EventError

namespace LocalEventStore

def new : LocalEventStore := ⟨ReplicaStore.new⟩

def putEvent (store : LocalEventStore) (eventId : EventId) (bytes : EventStorageBytes) :
    LocalEventStore :=
  ⟨(store.replica.putEvent eventId bytes).store⟩

def queueOutbox (store : LocalEventStore) (providerId : Str) (eventId : EventId)
    (bytes : EventStorageBytes) : LocalEventStore :=
  ⟨(store.replica.queueOutbox providerId eventId bytes).store⟩

def getBytes (store : LocalEventStore) (eventId : EventId) : LocalEventBytes :=
  match store.replica.getBytes eventId with
  | .unknownEvent => .unknownEvent
  | .stored bytes => .stored bytes

def eventIds (store : LocalEventStore) : List EventId := store.replica.eventIds

/-- The bytes of a stored event, or the error for a missing one. -/
def storedBytes (store : LocalEventStore) (eventId : EventId) : EventResult EventStorageBytes :=
  match store.getBytes eventId with
  | .stored bytes => .ok bytes
  | .unknownEvent => .error (.missingEvent eventId.asStr)

def loadEvent (store : LocalEventStore) (storeId : Str) (graph : EventGraph) (eventId : EventId) :
    EventResult EventGraph := do
  let bytes ← store.storedBytes eventId
  let event ← VaultEvent.parseEventStorageBytes bytes
  let insertion ← (graph.insert event storeId).mapError EventGraphRejection.cause
  return insertion.graph

/-- Build a causal graph from stored YAML bytes. -/
def loadGraph (store : LocalEventStore) (storeId : Str) : EventResult EventGraph :=
  store.eventIds.foldlM (store.loadEvent storeId) EventGraph.new

end LocalEventStore

/-! ### The graph of stored and received records -/

structure LocalGraphProjection where
  localStore : LocalEventStore
  remote : List (EventId × EventStorageBytes)
  storeId : Str
  excluded : BTreeSet EventId

namespace LocalGraphProjection

def readLocal (projection : LocalGraphProjection) (events : BTreeMap EventId VaultEvent)
    (id : EventId) : EventResult (BTreeMap EventId VaultEvent) :=
  if projection.excluded.contains id then .ok events
  else do
    let bytes ← projection.localStore.storedBytes id
    return events.insert id (← VaultEvent.parseEventStorageBytes bytes)

def readRemote (projection : LocalGraphProjection) (events : BTreeMap EventId VaultEvent)
    (record : EventId × EventStorageBytes) : EventResult (BTreeMap EventId VaultEvent) :=
  if projection.excluded.contains record.1 || events.contains record.1 then .ok events
  else do
    return events.insert record.1 (← VaultEvent.parseEventStorageBytes record.2)

def events (projection : LocalGraphProjection) : EventResult (BTreeMap EventId VaultEvent) := do
  let events ← projection.localStore.eventIds.foldlM projection.readLocal ∅
  projection.remote.foldlM projection.readRemote events

def build (projection : LocalGraphProjection) : EventResult EventGraph := do
  let events ← projection.events
  (EventGraph.new.insertAll projection.storeId events.intoValues).mapError EventGraphRejection.cause

end LocalGraphProjection

/-! ### Union with a remote batch -/

structure LocalRemoteUnion where
  remoteEvents : List (EventId × EventStorageBytes)
  storeId : Str

structure LocalRemoteUnionOutcome where
  store : LocalEventStore
  imported : List EventId
  heads : List Str

structure PreparedRemoteUnion where
  localStore : LocalEventStore
  additions : List (EventId × EventStorageBytes)
  excluded : BTreeSet EventId
  heads : List Str

namespace LocalEventStore

def parseRecord (record : EventId × EventStorageBytes) :
    EventResult ((EventId × EventStorageBytes) × VaultEvent) := do
  return (record, ← VaultEvent.parseEventStorageBytes record.2)

/-- Hide a remotely visible epoch trigger until its directly committing
checkpoint is also visible. -/
def visibilityGatedRemoteEvents (store : LocalEventStore)
    (remoteEvents : List (EventId × EventStorageBytes)) (storeId : Str) :
    EventResult (List (EventId × EventStorageBytes)) := do
  let graph ← (LocalGraphProjection.mk store remoteEvents storeId ∅).build
  let hidden ← graph.incompleteSecurityTransitionEvents
  let events ← remoteEvents.mapM parseRecord
  return (events.filter fun record => !hidden.contains record.1.1).map Prod.fst

/-- One visible record: an addition unless it is stored or already added. -/
def addVisible (store : LocalEventStore)
    (state : List (EventId × EventStorageBytes) × BTreeSet EventId)
    (record : EventId × EventStorageBytes) :
    List (EventId × EventStorageBytes) × BTreeSet EventId :=
  if store.getBytes record.1 ≠ .unknownEvent ∨ state.2.contains record.1 then state
  else (state.1 ++ [record], state.2.insert record.1)

def newRecords (store : LocalEventStore) (visible : List (EventId × EventStorageBytes)) :
    List (EventId × EventStorageBytes) :=
  (visible.foldl store.addVisible ([], ∅)).1

end LocalEventStore

namespace PreparedRemoteUnion

def checkRemote (expectedStore : StoreId) (record : EventId × EventStorageBytes) :
    EventResult Unit := do
  let event ← VaultEvent.parseRemoteEventStorageBytes record.2
  ensure ((← event.id) = record.1) (.remoteEventIdMismatch record.1.asStr)
  discard (event.validateEnvelope expectedStore)

def prepared (store : LocalEventStore) (request : LocalRemoteUnion) :
    EventResult PreparedRemoteUnion := do
  let expectedStore ← (StoreId.parse request.storeId).mapError .validation
  request.remoteEvents.forM (checkRemote expectedStore)
  let visible ← store.visibilityGatedRemoteEvents request.remoteEvents request.storeId
  let additions := store.newRecords visible
  let graph ← (LocalGraphProjection.mk store additions request.storeId ∅).build
  let quarantined : BTreeSet EventId := Std.ExtTreeSet.ofList graph.quarantined.keys compare
  let excluded := quarantined.insertMany (← graph.incompleteSecurityTransitionEvents).toList
  let acceptedGraph ← (LocalGraphProjection.mk store additions request.storeId excluded).build
  return {
    localStore := store
    additions := additions.filter fun record => !excluded.contains record.1
    excluded := excluded
    heads := acceptedGraph.heads.map Text.asStr }

def prepare (store : LocalEventStore) (request : LocalRemoteUnion) :
    Except LocalEventStoreRejection PreparedRemoteUnion :=
  (prepared store request).mapError fun cause => ⟨store, cause⟩

def commitAddition (state : LocalEventStore × List EventId)
    (record : EventId × EventStorageBytes) : LocalEventStore × List EventId :=
  (state.1.putEvent record.1 record.2, state.2 ++ [record.1])

def commit (prepared : PreparedRemoteUnion) : LocalRemoteUnionOutcome :=
  let excluding : LocalEventStore :=
    ⟨prepared.localStore.replica.excludingEvents prepared.excluded⟩
  let (store, imported) := prepared.additions.foldl commitAddition (excluding, [])
  ⟨store, imported, prepared.heads⟩

end PreparedRemoteUnion

def LocalEventStore.unionRemote (store : LocalEventStore) (request : LocalRemoteUnion) :
    Except LocalEventStoreRejection LocalRemoteUnionOutcome := do
  return (← PreparedRemoteUnion.prepare store request).commit

end Nook.EventLog
